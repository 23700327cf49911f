import BlobLifecycle.Proofs.Tracking

/-! Times in the ledger are readings of the clock. Everyone reads it once and claims with
that reading, so that an entry condemned while it was held was claimed long before. -/
namespace BlobLifecycle

/-- Going back from `now` stops at the least time, which no reading undercuts. -/
theorem Timestamp.lt_of_lt_back {t now interval : Int} (least : Word.least ≤ t)
    (before : t < back now interval) : t + interval < now := by
  unfold back at before
  omega

theorem Entry.claimedAt_le_lastActivity {e : Entry} {time : Timestamp}
    (claimed : e.claimedAt = some time) : time ≤ e.lastActivity := by
  simp only [lastActivity, claimed]
  exact Int.le_max_left time e.writtenAt

theorem LedgerRow.HeldFor.unique {row : LedgerRow} {a b : RecordField} (first : row.HeldFor a)
    (second : row.HeldFor b) : a = b := by
  obtain ⟨record, field⟩ := a
  obtain ⟨record', field'⟩ := b
  have sameRecord := first.1.symm.trans second.1
  have sameField := first.2.1.symm.trans second.2.1
  simp_all

/-- Whoever holds a row now held it before with this time, or claims it by this effect. -/
theorem RowStep.holding {locator : Locator} {d : Effect} {before : Option LedgerRow}
    {row' : LedgerRow} {holder : RecordField} {time : Timestamp}
    (step : RowStep locator d before (some row')) (held : row'.HeldFor holder)
    (stamp : row'.claimedAt = some time) :
    (∃ row, before = some row ∧ row.HeldFor holder ∧ row.claimedAt = some time) ∨
      d.Claims locator holder time := by
  cases step with
  | other apart => exact .inl ⟨row', rfl, held, stamp⟩
  | entered stored => exact nomatch held.1
  | @claimed row holder' time' free =>
    obtain ⟨record, field⟩ := holder
    obtain ⟨record', field'⟩ := holder'
    simp only [LedgerRow.claimFor, LedgerRow.HeldFor, Option.some.injEq] at held stamp
    obtain ⟨rfl, rfl, _⟩ := held
    subst stamp
    exact .inr (.inl rfl)
  | @renewed row holder' time' held' =>
    obtain rfl := held'.unique held
    cases stamp
    exact .inr (.inr rfl)
  | unclaimed held' => exact nomatch held.1
  | condemned here unchanged => exact nomatch held.2.2

/-- The time of a claim stays, or a claim sets it. -/
theorem RowStep.stamping {locator : Locator} {d : Effect} {before : Option LedgerRow}
    {row' : LedgerRow} {time : Timestamp} (step : RowStep locator d before (some row'))
    (stamp : row'.claimedAt = some time) :
    (∃ row, before = some row ∧ row.claimedAt = some time) ∨
      ∃ holder, d.Claims locator holder time := by
  cases step with
  | other apart => exact .inl ⟨row', rfl, stamp⟩
  | entered stored => cases stamp
  | @claimed row holder time' free => cases stamp; exact .inr ⟨holder, .inl rfl⟩
  | @renewed row holder time' held => cases stamp; exact .inr ⟨holder, .inr rfl⟩
  | unclaimed held => cases stamp
  | @condemned row e time here unchanged => exact .inl ⟨row, rfl, stamp⟩

structure Timed (w : World) : Prop where
  clock : Word.least ≤ w.vault.clock
  past : ∀ a time, (a, .read time) ∈ w.history → Word.least ≤ time ∧ time ≤ w.vault.clock
  single : ∀ a time time', (a, .read time) ∈ w.history → (a, .read time') ∈ w.history → time = time'
  claimed : ∀ a d locator holder time, (a, d) ∈ w.history → d.Claims locator holder time →
    (a, .read time) ∈ w.history
  stamped : ∀ locator row time, w.vault.row locator = some row → row.claimedAt = some time →
    Word.least ≤ time ∧ time ≤ w.vault.clock

namespace Timed

variable {s : Setting} {w w' : World} {a : Actor} {d : Effect} {locator : Locator}

theorem initial (started : w.Initial) : Timed w where
  clock := started.clock
  past := by simp [started.history]
  single := by simp [started.history]
  claimed := by simp [started.history]
  stamped := by
    intro locator row time present
    rw [started.row] at present
    cases present

theorem transfer (timed : Timed w) (unmoved : w.Unmoved w')
    (clock : w.vault.clock ≤ w'.vault.clock) : Timed w' := by
  have same := unmoved.members
  constructor
  · exact Int.le_trans timed.clock clock
  · intro b time member
    obtain ⟨least, past⟩ := timed.past b time ((same b _ (by simp)).1 member)
    exact ⟨least, Int.le_trans past clock⟩
  · simpa [same] using timed.single
  · intro b d locator holder time member claims
    have other : ∀ references, d ≠ .persisted references := by
      rcases claims with rfl | rfl <;> simp
    exact (same b _ (by simp)).2
      (timed.claimed b d locator holder time ((same b d other).1 member) claims)
  · intro locator row time present stamp
    rw [unmoved.row] at present
    obtain ⟨least, past⟩ := timed.stamped locator row time present stamp
    exact ⟨least, Int.le_trans past clock⟩

theorem acts (timed : Timed w) (acts : w.Acts s a d w') : Timed w' := by
  have clock := acts.happens.clock
  have alone {b : Actor} {time time' : Timestamp} (member : (b, .read time) ∈ w.history)
      (now : b = a ∧ Effect.read time' = d) : False := by
    obtain ⟨rfl, rfl⟩ := now
    exact acts.reading.1 time (World.mem_own.2 member)
  constructor
  · rw [clock]; exact timed.clock
  · intro b time member
    rw [clock]
    rcases acts.members.1 member with ⟨rfl, rfl⟩ | member
    · have seen : time = w.vault.clock := acts.happens.seen
      exact ⟨seen ▸ timed.clock, Int.le_of_eq seen⟩
    · exact timed.past b time member
  · intro b time time' member member'
    rcases acts.members.1 member with now | member <;>
      rcases acts.members.1 member' with now' | member'
    · cases now.2.trans now'.2.symm; rfl
    · exact (alone member' now).elim
    · exact (alone member now').elim
    · exact timed.single b time time' member member'
  · intro b d' locator holder time member claims
    rcases acts.members.1 member with ⟨rfl, rfl⟩ | member
    · exact acts.members.2 (.inr (World.mem_own.1 (acts.claiming claims).1))
    · exact acts.members.2 (.inr (timed.claimed b d' locator holder time member claims))
  · intro locator row' time present' stamp
    have step := acts.row locator
    rw [present'] at step
    rw [clock]
    rcases step.stamping stamp with ⟨row, present, stamp⟩ | ⟨holder, claims⟩
    · exact timed.stamped locator row time present stamp
    · exact timed.past a time (World.mem_own.1 (acts.claiming claims).1)

theorem step (timed : Timed w) (lawful : w.Lawful s) (step : Step s w w') : Timed w' := by
  rcases step.kinds lawful with still | ⟨a, d, acts⟩ | ⟨a, record, changes, persists⟩
  · exact timed.transfer still.unmoved still.clock
  · exact timed.acts acts
  · exact timed.transfer persists.unmoved (Int.le_of_eq persists.clock.symm)

end Timed

theorem Reachable.timed {s : Setting} {w : World} (reached : Reachable s w) : Timed w :=
  reached.induction (fun _ => .initial) fun _ _ before timed step => timed.step before.lawful step

/-- A held row is condemned only if its holder was asked for, and long after its claim. -/
theorem Timed.condemned_late {s : Setting} {w w' : World} {a : Actor} {e : Entry}
    {time : Timestamp} {row : LedgerRow} {holder : RecordField} (timed : Timed w)
    (tracked : Tracked w) (acts : w.Acts s a (.condemned e time) w')
    (present : w.vault.row e.locator = some row) (held : row.HeldFor holder)
    (unchanged : row.Unchanged e) :
    ∃ claimed now values, row.claimedAt = some claimed ∧ (a, .read now) ∈ w.history ∧
      claimed + s.grace < now ∧ (a, .asked holder values) ∈ w.history ∧
      ¬HoldObject values e.tier e.locator := by
  obtain ⟨found, ⟨cutoff, ⟨now, interval, read, enough, rfl⟩, old⟩, unheld⟩ := acts.condemning
  obtain ⟨_, same⟩ := unchanged
  cases claim : e.claim with
  | none =>
    rw [claim] at same
    exact nomatch held.1.symm.trans same
  | some holder' =>
    rw [claim] at same
    obtain rfl : holder' = holder :=
      LedgerRow.HeldFor.unique ⟨same.1, same.2.1, held.2.2⟩ held
    obtain ⟨values, asked, absent⟩ := unheld holder' claim
    obtain ⟨tier, enters, _, _, whole⟩ := tracked.rows e.locator row present
    rcases whole with ⟨free, _⟩ | ⟨_, claimed, _, _, stamp⟩
    · exact nomatch held.1.symm.trans free
    · refine ⟨claimed, now, values, stamp, World.mem_own.1 read, ?_, World.mem_own.1 asked, absent⟩
      have least := (timed.stamped e.locator row claimed present stamp).1
      have active := Entry.claimedAt_le_lastActivity (same.2.2.symm.trans stamp)
      have late : claimed + interval < now :=
        Timestamp.lt_of_lt_back least (Int.lt_of_le_of_lt active old)
      exact Int.lt_of_le_of_lt (Int.add_le_add_left enough claimed) late

end BlobLifecycle
