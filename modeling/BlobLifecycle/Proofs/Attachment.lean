import BlobLifecycle.Proofs.Timing

/-! Record commits against sweeps. Content that a live version holds has no row, or a row
held for the version's field; a sweep that saw the field without the content may condemn
the row only with a claim older than the grace interval, which no commit persists on. -/
namespace BlobLifecycle

/-- The records after the changes to one record were written: nothing becomes live but the
new values, and the values that count as replaced were there. -/
structure Repository.Writes (before : Repository) (record : RecordId) (changes : List FieldChange)
    (after : Repository) : Prop where
  others : ∀ other field, other ≠ record → after.fieldHistory other field = before.fieldHistory other field
  origin : ∀ field values, after.fieldHistory record field = .ok values → ∀ v ∈ values,
    (∃ old, before.fieldHistory record field = .ok old ∧ v ∈ old) ∨
      ∃ c ∈ changes, c.field = field ∧ c.after = some v
  replaced : ∀ c ∈ changes, ∀ v, c.before = some v →
    ∃ old, before.fieldHistory record c.field = .ok old ∧ v ∈ old

theorem Sample.writes (before after : Option FieldValue) :
    (records before).Writes record [change before after] (records after) where
  others := by
    intro other f apart
    simp [records, apart]
  origin := by
    intro f values history v member
    simp only [records, Except.ok.injEq] at history
    subst history
    by_cases here : f = field
    · refine .inr ⟨_, List.mem_singleton_self _, here.symm, ?_⟩
      have new : after = some v := by simpa [here] using member
      exact new
    · simp [here] at member
  replaced := by
    intro c listed v former
    rw [List.mem_singleton.1 listed] at former ⊢
    have same : before = some v := former
    exact ⟨[v], by simp [records, change, same], List.mem_singleton_self v⟩

structure Setting.Commits (s : Setting) : Prop where
  callers : ∀ n, ¬s.admits (.caller n)
  edits : ¬s.edits
  apart : ∀ record, s.conflicts record record
  writes : ∀ {returned record changes before after}, s.persists returned record changes before after →
    before.Writes record changes after

namespace World

def Carries (w : World) (holder : RecordField) (h : Handle) : Prop :=
  ∃ values, w.vault.repository.fieldHistory holder.record holder.field = .ok values ∧ Hold values h

/-- A live version of the record holds a handle of the object in the field. -/
def Live (w : World) (holder : RecordField) (tier : Tier) (locator : Locator) : Prop :=
  ∃ h, w.Carries holder h ∧ h.tier = tier ∧ h.locator = locator

theorem Carries.live {w : World} {holder : RecordField} {h : Handle} (carries : w.Carries holder h) :
    w.Live holder h.tier h.locator := ⟨h, carries, rfl, rfl⟩

/-- Never to be claimed again, never given to a record, and in none. -/
structure Dead (w : World) (tier : Tier) (locator : Locator) : Prop where
  stored : tier.isStored = true
  gone : w.Gone locator
  unreleased : ∀ a holder, (a, .released locator holder) ∉ w.history
  unheld : ∀ holder, ¬w.Live holder tier locator

theorem carries_iff {w w' : World} (same : w'.vault.repository = w.vault.repository)
    {holder : RecordField} {h : Handle} : w'.Carries holder h ↔ w.Carries holder h := by
  simp only [Carries, same]

theorem live_iff {w w' : World} (same : w'.vault.repository = w.vault.repository)
    {holder : RecordField} {tier : Tier} {locator : Locator} :
    w'.Live holder tier locator ↔ w.Live holder tier locator := by
  simp only [Live, carries_iff same]

/-- What becomes live by a commit is among the references that it reserved. -/
theorem Persists.introduces {s : Setting} {w w' : World} {a : Actor} {record : RecordId}
    {changes : List FieldChange} {holder : RecordField} {tier : Tier} {locator : Locator}
    (commits : s.Commits) (persists : w.Persists s a record changes w')
    (live : w'.Live holder tier locator) (stored : tier.isStored = true) :
    w.Live holder tier locator ∨
      (holder.record = record ∧ ∃ r ∈ storedReferences (BlobPlan.ofChanges record changes).toReserve,
        r.holder = holder ∧ r.handle.tier = tier ∧ r.handle.locator = locator) := by
  have writes := commits.writes persists.written
  obtain ⟨owner, field⟩ := holder
  obtain ⟨h, ⟨values, history, v, member, listed⟩, rfl, rfl⟩ := live
  by_cases same : owner = record
  · subst same
    rcases writes.origin field values history v member with ⟨old, before, kept⟩ | ⟨c, change, rfl, new⟩
    · exact .inl ⟨h, ⟨old, before, v, kept, listed⟩, rfl, rfl⟩
    · by_cases replaced : Hold c.before.toList h
      · obtain ⟨v', former, listed'⟩ := hold_toList.1 replaced
        obtain ⟨old, before, kept⟩ := writes.replaced c change v' former
        exact .inl ⟨h, ⟨old, before, v', kept, listed'⟩, rfl, rfl⟩
      · have introduced : h ∈ c.introduced :=
          FieldChange.mem_introduced.2 ⟨hold_toList.2 ⟨v, new, listed⟩, stored, replaced⟩
        have reserved : ⟨h, owner, c.field⟩ ∈ (BlobPlan.ofChanges owner changes).toReserve :=
          BlobPlan.mem_toReserve.2 ⟨c, change, introduced, rfl⟩
        exact .inr ⟨rfl, _, List.mem_filter.2 ⟨reserved, stored⟩, rfl, rfl, rfl⟩
  · rw [writes.others owner field same] at history
    exact .inl ⟨h, ⟨values, history, v, member, listed⟩, rfl, rfl⟩

/-- What becomes live by a commit was claimed by it. -/
theorem Persists.live {s : Setting} {w w' : World} {a : Actor} {record : RecordId}
    {changes : List FieldChange} {holder : RecordField} {tier : Tier} {locator : Locator}
    (commits : s.Commits) (persists : w.Persists s a record changes w')
    (live : w'.Live holder tier locator) (stored : tier.isStored = true) :
    w.Live holder tier locator ∨
      (holder.record = record ∧ ∃ d ∈ w.own a, ∃ time, d.Claims locator holder time) := by
  rcases persists.introduces commits live stored with before | ⟨same, r, reserved, rfl, _, rfl⟩
  · exact .inl before
  · obtain ⟨time, d, member, claims⟩ := persists.granted.claims r reserved
    exact .inr ⟨same, d, member, time, claims⟩

end World

structure Attached (s : Setting) (w : World) : Prop where
  /-- Commits to one record do not overlap. -/
  apart : ∀ record m n, w.Running (.commit record m) → w.Running (.commit record n) → m = n
  owner : ∀ a d locator holder time, (a, d) ∈ w.history → d.Claims locator holder time →
    ∃ n, a = .commit holder.record n
  entered : ∀ holder tier locator, w.Live holder tier locator → tier.isStored = true →
    ∃ tier, w.Enters tier locator
  held : ∀ holder tier locator row, w.Live holder tier locator → w.Enters tier locator →
    w.vault.row locator = some row → row.HeldFor holder
  /-- No claim for a record is later than the reading of its running commit. -/
  ordered : ∀ record n reading locator row field time, w.Running (.commit record n) →
    (.commit record n, .read reading) ∈ w.history → w.vault.row locator = some row →
    row.HeldFor ⟨record, field⟩ → row.claimedAt = some time → time ≤ reading
  /-- Content that became live since its holder was asked was claimed lately. -/
  asked : ∀ a holder values now tier locator row, (a, .asked holder values) ∈ w.history →
    (a, .read now) ∈ w.history → ¬HoldObject values tier locator →
    w.Live holder tier locator → w.Enters tier locator → w.vault.row locator = some row →
    ∃ time, row.claimedAt = some time ∧ now ≤ time + s.grace
  /-- The claims of a commit stand until it persists, or are too old to persist on. -/
  granted : ∀ record n d locator holder time, w.Running (.commit record n) →
    (∀ references, (.commit record n, .persisted references) ∉ w.history) →
    Steady (w.own (.commit record n)) → (.commit record n, d) ∈ w.history →
    d.Claims locator holder time →
    (∃ b, (b, .released locator holder) ∈ w.history) ∨
      (∃ row, w.vault.row locator = some row ∧ row.HeldFor holder ∧ row.claimedAt = some time) ∨
      time + s.grace < w.vault.clock
  /-- What a commit newly claimed is in no record until it persists. -/
  revocable : ∀ record n locator holder time tier, w.Running (.commit record n) →
    (∀ references, (.commit record n, .persisted references) ∉ w.history) →
    (.commit record n, .claimed locator holder time) ∈ w.history → w.Enters tier locator →
    ¬w.Live holder tier locator
  found : ∀ a e, (a, .found e) ∈ w.history → e.condemnedAt.isSome = true → w.Dead e.tier e.locator
  condemned : ∀ a e time, (a, .condemned e time) ∈ w.history → w.Dead e.tier e.locator

namespace Attached

variable {s : Setting} {w w' : World} {a : Actor} {d : Effect} {holder : RecordField} {tier : Tier}
  {locator : Locator}

theorem initial (started : w.Initial) : Attached s w := by
  have dead (holder : RecordField) (tier : Tier) (locator : Locator) :
      ¬w.Live holder tier locator := by
    rintro ⟨h, ⟨values, history, v, member, _⟩, _⟩
    rw [started.records] at history
    cases history
    cases member
  constructor
  · exact fun _ _ _ running => (started.idle _ running).elim
  · simp [started.history]
  · exact fun _ _ _ live => (dead _ _ _ live).elim
  · exact fun _ _ _ _ live => (dead _ _ _ live).elim
  · exact fun _ _ _ _ _ _ _ running => (started.idle _ running).elim
  · exact fun _ _ _ _ _ _ _ _ _ _ live => (dead _ _ _ live).elim
  · exact fun _ _ _ _ _ _ running => (started.idle _ running).elim
  · exact fun _ _ _ _ _ _ running => (started.idle _ running).elim
  · simp [started.history]
  · simp [started.history]

theorem apart_still (commits : s.Commits) (attached : Attached s w) (still : w.Still s w')
    (record : RecordId) (m n : Nat) (first : w'.Running (.commit record m))
    (second : w'.Running (.commit record n)) : m = n := by
  rcases still.tasks with same | ⟨b, task, starts, _, others⟩
  · exact attached.apart record m n (same _ first) (same _ second)
  · have alone {k l : Nat} (new : .commit record k = b) (old : w.Running (.commit record l)) :
        False := by
      subst new
      obtain ⟨task', running⟩ := old
      cases starts with
      | commit alone => exact alone record l task' running (commits.apart record)
    rcases others _ first with new | old <;> rcases others _ second with new' | old'
    · cases new.trans new'.symm; rfl
    · exact (alone new old').elim
    · exact (alone new' old).elim
    · exact attached.apart record m n old old'

theorem still (commits : s.Commits) (attached : Attached s w) (still : w.Still s w') :
    Attached s w' := by
  have live {holder : RecordField} {tier : Tier} {locator : Locator} :
      w'.Live holder tier locator ↔ w.Live holder tier locator :=
    World.live_iff (still.repository commits.edits)
  have unmoved := still.unmoved
  have own (a : Actor) : w'.own a = w.own a := by simp [World.own, still.history]
  have busy {a : Actor} {d : Effect} (running : w'.Running a) (member : (a, d) ∈ w.history) :
      w.Running a := by
    rcases still.running running with running | idle
    · exact running
    · exact absurd (World.mem_own.2 member) (by simp [idle])
  have dead {tier : Tier} {locator : Locator} (dead : w.Dead tier locator) : w'.Dead tier locator := by
    obtain ⟨stored, gone, unreleased, unheld⟩ := dead
    exact ⟨stored, unmoved.gone.2 gone, by simpa [still.history] using unreleased,
      by simpa [live] using unheld⟩
  constructor
  · exact attached.apart_still commits still
  · simpa [still.history] using attached.owner
  · simpa [live, unmoved.enters] using attached.entered
  · simpa [live, unmoved.enters, unmoved.row] using attached.held
  · intro record n reading locator row' field time running member present
    rw [still.history] at member
    rw [unmoved.row] at present
    exact attached.ordered record n reading locator row' field time (busy running member) member present
  · simpa [still.history, live, unmoved.enters, unmoved.row] using attached.asked
  · intro record n d locator holder time running fresh steady member claims
    simp only [still.history, own, unmoved.row] at fresh steady member ⊢
    rcases attached.granted record n d locator holder time (busy running member) fresh steady member
      claims with released | held | late
    · exact .inl released
    · exact .inr (.inl held)
    · exact .inr (.inr (Int.lt_of_lt_of_le late still.clock))
  · intro record n locator holder time tier running fresh member
    simp only [still.history, live, unmoved.enters] at fresh member ⊢
    exact attached.revocable record n locator holder time tier (busy running member) fresh member
  · exact fun b e member marked => dead (attached.found b e (still.history ▸ member) marked)
  · exact fun b e time member => dead (attached.condemned b e time (still.history ▸ member))

/-- What a commit makes live lost its row to a release, or is held since a recent claim. -/
theorem fresh_claim {record : RecordId} {changes : List FieldChange} (attached : Attached s w)
    (persists : w.Persists s a record changes w') {time : Timestamp} (member : d ∈ w.own a)
    (claims : d.Claims locator holder time) :
    (∃ b, (b, .released locator holder) ∈ w.history) ∨
      ∃ row, w.vault.row locator = some row ∧ row.HeldFor holder ∧ row.claimedAt = some time ∧
        w.vault.clock ≤ time + s.grace := by
  obtain ⟨n, rfl⟩ := persists.actor
  have timely := persists.timely d member locator holder time claims
  rcases attached.granted record n d locator holder time persists.committing
      (fun references member => persists.once references (World.mem_own.2 member))
      persists.granted.steady (World.mem_own.1 member) claims with released | ⟨row, held⟩ | late
  · exact .inl released
  · exact .inr ⟨row, held.1, held.2.1, held.2.2, timely⟩
  · exact absurd timely (Int.not_le.2 late)

theorem dead_persists (commits : s.Commits) (attached : Attached s w) {record : RecordId}
    {changes : List FieldChange} (persists : w.Persists s a record changes w')
    (dead : w.Dead tier locator) : w'.Dead tier locator := by
  obtain ⟨stored, gone, unreleased, unheld⟩ := dead
  refine ⟨stored, persists.unmoved.gone.2 gone, ?_, ?_⟩
  · exact fun b holder member => unreleased b holder ((persists.members b _ (by simp)).1 member)
  · intro holder live
    rcases persists.live commits live stored with before | ⟨_, d, member, time, claims⟩
    · exact unheld holder before
    · rcases attached.fresh_claim persists member claims with ⟨b, released⟩ | ⟨row', present, held, _⟩
      · exact unreleased b holder released
      · exact gone.unheld present holder held

theorem held_persists (commits : s.Commits) (tracked : Tracked w) (attached : Attached s w)
    {record : RecordId} {changes : List FieldChange} {row : LedgerRow}
    (persists : w.Persists s a record changes w') (live : w'.Live holder tier locator)
    (entered : w.Enters tier locator) (present : w.vault.row locator = some row) :
    row.HeldFor holder := by
  rcases persists.live commits live (tracked.stored entered present) with
    before | ⟨_, d, member, time, claims⟩
  · exact attached.held holder tier locator row before entered present
  · rcases attached.fresh_claim persists member claims with ⟨b, released⟩ | ⟨_, present', held, _⟩
    · exact (tracked.unreleased present b holder released).elim
    · cases present.symm.trans present'
      exact held

/-- What a commit makes live was claimed at most a grace interval ago, and so after any reading. -/
theorem asked_persists (commits : s.Commits) (tracked : Tracked w) (timed : Timed w)
    (attached : Attached s w) {record : RecordId} {changes : List FieldChange} {row : LedgerRow}
    {b : Actor} {values : List FieldValue} {now : Timestamp}
    (persists : w.Persists s a record changes w') (asked : (b, .asked holder values) ∈ w.history)
    (read : (b, .read now) ∈ w.history) (absent : ¬HoldObject values tier locator)
    (live : w'.Live holder tier locator) (entered : w.Enters tier locator)
    (present : w.vault.row locator = some row) :
    ∃ time, row.claimedAt = some time ∧ now ≤ time + s.grace := by
  rcases persists.live commits live (tracked.stored entered present) with
    before | ⟨_, d, member, time, claims⟩
  · exact attached.asked b holder values now tier locator row asked read absent before entered present
  · rcases attached.fresh_claim persists member claims with
      ⟨c, released⟩ | ⟨_, present', _, stamp, recent⟩
    · exact (tracked.unreleased present c holder released).elim
    · cases present.symm.trans present'
      exact ⟨time, stamp, Int.le_trans (timed.past b now read).2 recent⟩

/-- Only another record's commit can have persisted, so the field is as it was. -/
theorem revocable_persists (commits : s.Commits) (attached : Attached s w) {record other : RecordId}
    {changes : List FieldChange} {n : Nat} {time : Timestamp}
    (persists : w.Persists s a record changes w') (running : w.Running (.commit other n))
    (fresh : ∀ references, (.commit other n, .persisted references) ∉ w'.history)
    (member : (.commit other n, .claimed locator holder time) ∈ w.history)
    (entered : w.Enters tier locator) : ¬w'.Live holder tier locator := by
  intro live
  have unheld := attached.revocable other n locator holder time tier running
    (fun references earlier => fresh references (by simp [persists.history, earlier])) member entered
  obtain ⟨m, rfl⟩ := persists.actor
  obtain ⟨k, same⟩ := attached.owner _ _ locator holder time member (.inl rfl)
  simp only [Actor.commit.injEq] at same
  by_cases mine : holder.record = record
  · obtain rfl : other = record := same.1.trans mine
    obtain rfl := attached.apart other m n persists.committing running
    exact fresh _ (by rw [persists.history]; exact List.mem_cons_self)
  · have unchanged := (commits.writes persists.written).others holder.record holder.field mine
    apply unheld
    simpa only [World.Live, World.Carries, unchanged] using live

theorem persists (commits : s.Commits) (tracked : Tracked w) (timed : Timed w)
    (attached : Attached s w) {record : RecordId} {changes : List FieldChange}
    (persists : w.Persists s a record changes w') : Attached s w' := by
  have members := persists.members
  have unmoved := persists.unmoved
  constructor
  · exact fun record m n first second =>
      attached.apart record m n (persists.running _ first) (persists.running _ second)
  · intro b d locator holder time member claims
    refine attached.owner b d locator holder time ((members b d ?_).1 member) claims
    rcases claims with rfl | rfl <;> simp
  · intro holder tier locator live stored
    simp only [unmoved.enters]
    rcases persists.live commits live stored with before | ⟨_, d, member, time, claims⟩
    · exact attached.entered holder tier locator before stored
    · exact tracked.claims a d locator holder time (World.mem_own.1 member) claims
  · intro holder tier locator row live entered present
    rw [unmoved.enters] at entered
    rw [unmoved.row] at present
    exact attached.held_persists commits tracked persists live entered present
  · intro record n reading locator row field time running member present
    rw [unmoved.row] at present
    exact attached.ordered record n reading locator row field time (persists.running _ running)
      ((members _ _ (by simp)).1 member) present
  · intro b holder values now tier locator row asked read absent live entered present
    rw [unmoved.enters] at entered
    rw [unmoved.row] at present
    exact attached.asked_persists commits tracked timed persists ((members b _ (by simp)).1 asked)
      ((members b _ (by simp)).1 read) absent live entered present
  · intro other n d locator holder time running fresh steady member claims
    have before := (members _ d (by rcases claims with rfl | rfl <;> simp)).1 member
    rcases attached.granted other n d locator holder time (persists.running _ running)
        (fun references member => fresh references (by simp [persists.history, member]))
        (fun locator holder member => steady locator holder (World.mem_own.2
          ((members _ _ (by simp)).2 (World.mem_own.1 member)))) before claims with
      ⟨b, released⟩ | held | late
    · exact .inl ⟨b, (members _ _ (by simp)).2 released⟩
    · exact .inr (.inl (by simpa [unmoved.row] using held))
    · exact .inr (.inr (by rw [persists.clock]; exact late))
  · intro other n locator holder time tier running fresh member entered
    rw [unmoved.enters] at entered
    exact attached.revocable_persists commits persists (persists.running _ running) fresh
      ((members _ _ (by simp)).1 member) entered
  · intro b e member marked
    have before := (members b _ (by simp)).1 member
    exact attached.dead_persists commits persists (attached.found b e before marked)
  · intro b e time member
    have before := (members b _ (by simp)).1 member
    exact attached.dead_persists commits persists (attached.condemned b e time before)

theorem committing (commits : s.Commits) (acts : w.Acts s a d w')
    (reserves : w.ReservesFor a holder) :
    ∃ n, a = .commit holder.record n ∧ ∀ references, (a, .persisted references) ∉ w.history := by
  rcases reserves with ⟨n, rfl⟩ | ⟨⟨n, rfl⟩, unpersisted⟩
  · obtain ⟨task, _, lawful, _⟩ := acts.allowed
    exact (commits.callers n lawful.admitted).elim
  · exact ⟨n, rfl, fun references member => unpersisted references (World.mem_own.2 member)⟩

/-- What is live was entered before. -/
theorem enters_of_live (tracked : Tracked w) (attached : Attached s w) (acts : w.Acts s a d w')
    (live : w.Live holder tier locator) (entered : w'.Enters tier locator) :
    w.Enters tier locator := by
  obtain ⟨b, time, member⟩ := entered
  rcases acts.members.1 member with ⟨rfl, rfl⟩ | member
  · have step := acts.row locator
    generalize w.vault.row locator = before at step
    generalize w'.vault.row locator = after at step
    cases step with
    | other apart => exact (apart rfl).elim
    | entered stored =>
      obtain ⟨tier', entered⟩ := attached.entered holder tier locator live stored
      exact (tracked.fresh acts tier' entered).elim
  · exact ⟨b, time, member⟩

/-- A claim is taken back only where its holder has no live version with the content. -/
theorem unlive_of_unclaimed (commits : s.Commits) (attached : Attached s w)
    (acts : w.Acts s a (.unclaimed locator holder) w') (entered : w.Enters tier locator) :
    ¬w.Live holder tier locator := by
  obtain ⟨fewer, reserves⟩ := acts.unclaiming
  obtain ⟨n, rfl, unpersisted⟩ := committing commits acts reserves
  obtain ⟨time, member⟩ := claimed_of_made (Nat.lt_of_le_of_lt (Nat.zero_le _) fewer)
  exact attached.revocable holder.record n locator holder time tier acts.performer unpersisted
    (World.mem_own.1 member) entered

theorem held_acts (commits : s.Commits) (tracked : Tracked w) (timed : Timed w)
    (attached : Attached s w) (acts : w.Acts s a d w') {row' : LedgerRow}
    (live : w.Live holder tier locator) (entered : w.Enters tier locator)
    (present' : w'.vault.row locator = some row') : row'.HeldFor holder := by
  have step := acts.row locator
  have held := fun row => attached.held holder tier locator row live entered
  rw [present'] at step
  generalize present : w.vault.row locator = before at step held
  cases step with
  | other apart => exact held row' rfl
  | entered stored => exact (tracked.fresh acts tier entered).elim
  | claimed free => exact nomatch (held _ rfl).1.symm.trans free.1
  | renewed held' =>
    have held := held _ rfl
    exact held
  | unclaimed held' =>
    obtain rfl := held'.unique (held _ rfl)
    exact (attached.unlive_of_unclaimed commits acts entered live).elim
  | @condemned row e time here unchanged =>
    subst here
    obtain ⟨claimed, now, values, stamp, read, late, asked, absent⟩ :=
      timed.condemned_late tracked acts present (held _ rfl) unchanged
    obtain ⟨enters, _⟩ := tracked.found a e (World.mem_own.1 acts.condemning.found)
    obtain rfl := tracked.once e.locator tier e.tier entered enters
    obtain ⟨time', stamp', recent⟩ :=
      attached.asked a holder values now e.tier e.locator row asked read absent live entered present
    cases stamp.symm.trans stamp'
    exact absurd recent (Int.not_le.2 late)

/-- What someone found condemned, or condemned, is dead. -/
theorem dead_of_doomed (attached : Attached s w) {e : Entry} (doomed : Doomed (w.own a) e) :
    w.Dead e.tier e.locator := by
  rcases doomed.marked with ⟨found, condemned⟩ | ⟨time, condemned⟩
  · exact attached.found a e (World.mem_own.1 found) condemned
  · exact attached.condemned a e time (World.mem_own.1 condemned)

theorem ordered_acts (commits : s.Commits) (timed : Timed w) (attached : Attached s w)
    (acts : w.Acts s a d w') {record : RecordId} {n : Nat} {reading time : Timestamp}
    {row' : LedgerRow} {field : FieldTypeId} (running : w.Running (.commit record n))
    (member : (.commit record n, .read reading) ∈ w'.history)
    (present' : w'.vault.row locator = some row') (held : row'.HeldFor ⟨record, field⟩)
    (stamp : row'.claimedAt = some time) : time ≤ reading := by
  have step := acts.row locator
  rw [present'] at step
  rw [acts.history] at member
  rcases step.holding held stamp with ⟨row, present, held, stamp⟩ | claims
  · rcases List.mem_cons.1 member with same | member
    · cases same
      have now : reading = w.vault.clock := acts.happens.seen
      rw [now]
      exact (timed.stamped locator row time present stamp).2
    · exact attached.ordered record n reading locator row field time running member present held stamp
  · obtain ⟨read, _, reserves⟩ := acts.claiming claims
    obtain ⟨m, rfl, _⟩ := committing commits acts reserves
    obtain rfl := attached.apart record m n acts.performer running
    have earlier := World.mem_own.1 read
    rcases List.mem_cons.1 member with same | member
    · cases same
      exact (acts.reading.1 time read).elim
    · exact Int.le_of_eq (timed.single _ time reading earlier member)

theorem asked_acts (commits : s.Commits) (tracked : Tracked w) (timed : Timed w)
    (attached : Attached s w) (acts : w.Acts s a d w') {b : Actor} {values : List FieldValue}
    {now : Timestamp} {row' : LedgerRow} (asked : (b, .asked holder values) ∈ w'.history)
    (read : (b, .read now) ∈ w'.history) (absent : ¬HoldObject values tier locator)
    (live : w.Live holder tier locator) (entered : w.Enters tier locator)
    (present' : w'.vault.row locator = some row') :
    ∃ time, row'.claimedAt = some time ∧ now ≤ time + s.grace := by
  have held' := attached.held_acts commits tracked timed acts live entered present'
  rw [acts.history] at asked read
  rcases List.mem_cons.1 asked with same | before
  · cases same
    have seen : w.vault.repository.fieldHistory holder.record holder.field = .ok values :=
      acts.happens.seen
    obtain ⟨h, ⟨values', history, holds⟩, same⟩ := live
    cases seen.symm.trans history
    exact (absent ⟨h, holds, same⟩).elim
  rcases List.mem_cons.1 read with same | before'
  · cases same
    exact (acts.reading.2 holder values (World.mem_own.2 before)).elim
  have step := acts.row locator
  have recent := fun row => attached.asked b holder values now tier locator row before before'
    absent live entered
  have kept := fun row => attached.held holder tier locator row live entered
  rw [present'] at step
  generalize present : w.vault.row locator = before at step recent kept
  cases step with
  | other apart => exact recent row' rfl
  | entered stored => exact (tracked.fresh acts tier entered).elim
  | claimed free => exact nomatch (kept _ rfl).1.symm.trans free.1
  | @renewed row holder' time held =>
    obtain ⟨claimed, stamp, late⟩ := recent row rfl
    obtain rfl := held.unique (kept row rfl)
    obtain ⟨reading, _, reserves⟩ := acts.claiming (.inr rfl)
    obtain ⟨n, rfl, _⟩ := committing commits acts reserves
    have later := attached.ordered holder'.record n time locator row holder'.field claimed
      acts.performer (World.mem_own.1 reading) present held stamp
    exact ⟨time, rfl, Int.le_trans late (Int.add_le_add_right later _)⟩
  | unclaimed held => exact nomatch held'.1
  | condemned here unchanged => exact nomatch held'.2.2

theorem granted_acts (commits : s.Commits) (tracked : Tracked w) (timed : Timed w)
    (attached : Attached s w) (acts : w.Acts s a d w') {record : RecordId} {n : Nat} {d' : Effect}
    {time : Timestamp} (running : w.Running (.commit record n))
    (fresh : ∀ references, (.commit record n, .persisted references) ∉ w'.history)
    (steady : Steady (w'.own (.commit record n))) (member : (.commit record n, d') ∈ w'.history)
    (claims : d'.Claims locator holder time) :
    (∃ b, (b, .released locator holder) ∈ w'.history) ∨
      (∃ row, w'.vault.row locator = some row ∧ row.HeldFor holder ∧ row.claimedAt = some time) ∨
      time + s.grace < w'.vault.clock := by
  have grown := acts.grows
  have step := acts.row locator
  rw [acts.history] at member
  rcases List.mem_cons.1 member with same | before
  · cases same
    obtain ⟨_, row', _, present', held, stamp⟩ := step.of_claims claims
    exact .inr (.inl ⟨row', present', held, stamp⟩)
  obtain ⟨k, same⟩ := attached.owner _ d' locator holder time before claims
  obtain ⟨rfl, rfl⟩ : record = holder.record ∧ n = k := by simpa using same
  rcases attached.granted _ n d' locator holder time running
      (fun references member => fresh references (grown member))
      (fun locator holder member => steady locator holder (World.mem_own.2
        (grown (World.mem_own.1 member)))) before claims with
    ⟨b, released⟩ | ⟨row, present, held, stamp⟩ | late
  · exact .inl ⟨b, grown released⟩
  · rw [present] at step
    generalize after : w'.vault.row locator = row' at step
    cases step with
    | other apart => exact .inr (.inl ⟨row, rfl, held, stamp⟩)
    | claimed free => exact nomatch held.1.symm.trans free.1
    | renewed held' =>
      obtain rfl := held'.unique held
      obtain ⟨reading, _, reserves⟩ := acts.claiming (.inr rfl)
      obtain ⟨m, rfl, _⟩ := committing commits acts reserves
      obtain rfl := attached.apart _ m n acts.performer running
      have same := timed.single _ _ _ (World.mem_own.1 reading)
        (timed.claimed _ d' locator _ time before claims)
      exact .inr (.inl ⟨_, rfl, held, congrArg some same⟩)
    | unclaimed held' =>
      obtain rfl := held'.unique held
      obtain ⟨m, rfl, _⟩ := committing commits acts acts.unclaiming.2
      obtain rfl := attached.apart _ m n acts.performer running
      exact (steady locator _ (World.mem_own.2 (by rw [acts.history]; exact List.mem_cons_self))).elim
    | released held' =>
      obtain rfl := held'.unique held
      exact .inl ⟨a, acts.members.2 (.inl ⟨rfl, rfl⟩)⟩
    | condemned here unchanged =>
      subst here
      obtain ⟨claimed, now, _, stamp', read, late, _⟩ :=
        timed.condemned_late tracked acts present held unchanged
      cases stamp.symm.trans stamp'
      rw [acts.happens.clock]
      exact .inr (.inr (Int.lt_of_lt_of_le late (timed.past a now read).2))
    | removed =>
      obtain ⟨e, rfl, doomed⟩ := acts.removing
      exact ((attached.dead_of_doomed doomed).gone.unheld present holder held).elim
  · exact .inr (.inr (by rw [acts.happens.clock]; exact late))

theorem dead_acts (tracked : Tracked w) (acts : w.Acts s a d w') (dead : w.Dead tier locator) :
    w'.Dead tier locator := by
  obtain ⟨stored, gone, unreleased, unheld⟩ := dead
  refine ⟨stored, tracked.gone_acts acts gone, ?_, ?_⟩
  · intro b holder member
    rcases acts.members.1 member with ⟨rfl, rfl⟩ | member
    · obtain ⟨row, present, held, _⟩ := (acts.row locator).of_released
      exact gone.unheld present holder held
    · exact unreleased b holder member
  · intro holder live
    exact unheld holder ((World.live_iff acts.happens.repository).1 live)

/-- A row that is present and condemned leaves its content dead. -/
theorem dead_of_condemned (tracked : Tracked w) {row : LedgerRow}
    (held : ∀ holder, w.Live holder tier locator → row.HeldFor holder)
    (entered : w.Enters tier locator) (stored : tier.isStored = true)
    (present : w.vault.row locator = some row) (marked : row.condemnedAt.isSome = true) :
    w.Dead tier locator := by
  refine ⟨stored, ⟨⟨tier, entered⟩, ?_⟩, ?_, ?_⟩
  · intro row' present'
    cases present.symm.trans present'
    exact marked
  · exact tracked.unreleased present
  · intro holder live
    rw [(held holder live).2.2] at marked
    cases marked

theorem found_acts (tracked : Tracked w) (attached : Attached s w) (acts : w.Acts s a d w')
    {b : Actor} {e : Entry} (member : (b, .found e) ∈ w'.history)
    (marked : e.condemnedAt.isSome = true) : w'.Dead e.tier e.locator := by
  rw [acts.history] at member
  rcases List.mem_cons.1 member with same | member
  · cases same
    have seen : w.vault.row e.locator = some e.row := acts.happens.seen
    obtain ⟨tier, entered, named, stored, _⟩ := tracked.rows e.locator e.row seen
    obtain rfl := Tier.name_injective named
    refine dead_acts tracked acts (dead_of_condemned tracked ?_ entered stored seen marked)
    exact fun holder live => attached.held holder e.tier e.locator e.row live entered seen
  · exact dead_acts tracked acts (attached.found b e member marked)

theorem condemned_acts (commits : s.Commits) (tracked : Tracked w) (timed : Timed w)
    (attached : Attached s w) (acts : w.Acts s a d w') {b : Actor} {e : Entry} {time : Timestamp}
    (member : (b, .condemned e time) ∈ w'.history) : w'.Dead e.tier e.locator := by
  rw [acts.history] at member
  rcases List.mem_cons.1 member with same | member
  · cases same
    obtain ⟨entered, _, stored, _⟩ := tracked.found a e (World.mem_own.1 acts.condemning.found)
    obtain ⟨row, _, _, present⟩ := (acts.row e.locator).of_condemned
    refine dead_of_condemned (tracked.acts acts) ?_ (entered.mono acts.grows) stored present rfl
    intro holder live
    have before := (World.live_iff acts.happens.repository).1 live
    exact attached.held_acts commits tracked timed acts before entered present
  · exact dead_acts tracked acts (attached.condemned b e time member)

theorem revocable_acts (attached : Attached s w) (acts : w.Acts s a d w') {record : RecordId}
    {n : Nat} {time : Timestamp} (running : w.Running (.commit record n))
    (fresh : ∀ references, (.commit record n, .persisted references) ∉ w'.history)
    (member : (.commit record n, .claimed locator holder time) ∈ w'.history)
    (entered : w.Enters tier locator) : ¬w.Live holder tier locator := by
  rw [acts.history] at member
  rcases List.mem_cons.1 member with same | before
  · cases same
    intro live
    obtain ⟨row, present, free, _⟩ := (acts.row locator).of_claimed
    have held := attached.held holder tier locator row live entered present
    exact nomatch held.1.symm.trans free.1
  · exact attached.revocable record n locator holder time tier running
      (fun references member => fresh references (acts.grows member)) before entered

theorem acts (commits : s.Commits) (tracked : Tracked w) (timed : Timed w)
    (attached : Attached s w) (acts : w.Acts s a d w') : Attached s w' := by
  have before {holder : RecordField} {tier : Tier} {locator : Locator}
      (live : w'.Live holder tier locator) : w.Live holder tier locator :=
    (World.live_iff acts.happens.repository).1 live
  constructor
  · exact fun record m n first second =>
      attached.apart record m n (acts.running _ first) (acts.running _ second)
  · intro b d' locator holder time member claims
    rw [acts.history] at member
    rcases List.mem_cons.1 member with same | member
    · cases same
      obtain ⟨n, same, _⟩ := committing commits acts (acts.claiming claims).2.2
      exact ⟨n, same⟩
    · exact attached.owner b d' locator holder time member claims
  · intro holder tier locator live stored
    exact (attached.entered holder tier locator (before live) stored).imp fun _ e => e.mono acts.grows
  · intro holder tier locator row' live entered present'
    exact attached.held_acts commits tracked timed acts (before live)
      (attached.enters_of_live tracked acts (before live) entered) present'
  · intro record n reading locator row' field time running member present' held stamp
    exact attached.ordered_acts commits timed acts (acts.running _ running) member present' held stamp
  · intro b holder values now tier locator row' asked read absent live entered present'
    exact attached.asked_acts commits tracked timed acts asked read absent (before live)
      (attached.enters_of_live tracked acts (before live) entered) present'
  · intro record n d' locator holder time running fresh steady member claims
    exact attached.granted_acts commits tracked timed acts (acts.running _ running) fresh steady
      member claims
  · intro record n locator holder time tier running fresh member entered live
    have entered' := attached.enters_of_live tracked acts (before live) entered
    exact attached.revocable_acts acts (acts.running _ running) fresh member entered' (before live)
  · exact fun b e member marked => attached.found_acts tracked acts member marked
  · exact fun b e time member => attached.condemned_acts commits tracked timed acts member

theorem step (commits : s.Commits) (lawful : w.Lawful s) (tracked : Tracked w) (timed : Timed w)
    (attached : Attached s w) (step : Step s w w') : Attached s w' := by
  rcases step.kinds lawful with still | ⟨a, d, acts⟩ | ⟨a, record, changes, persists⟩
  · exact attached.still commits still
  · exact attached.acts commits tracked timed acts
  · exact attached.persists commits tracked timed persists

end Attached

theorem Reachable.attached {s : Setting} {w : World} (commits : s.Commits) (reached : Reachable s w) :
    Attached s w :=
  reached.induction (fun _ => .initial) fun _ _ before attached step =>
    attached.step commits before.lawful before.tracked before.timed step

end BlobLifecycle
