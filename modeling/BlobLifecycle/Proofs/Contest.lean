import BlobLifecycle.Proofs.Timing

/-! Many clients on one ledger. Their requests are answered one after another in any order;
of all that would end an entry one succeeds, and whoever comes later is refused. -/
namespace BlobLifecycle

inductive RowRun (locator : Locator) : List Effect → Option LedgerRow → Option LedgerRow → Prop
  | nil {row : Option LedgerRow} : RowRun locator [] row row
  | cons {d : Effect} {ds : List Effect} {before between after : Option LedgerRow}
      (step : RowStep locator d before between) (rest : RowRun locator ds between after) :
      RowRun locator (d :: ds) before after

/-- Whether the effect ends what others may do with the entry. -/
def Effect.decides (locator : Locator) : Effect → Bool
  | .released l _ => l = locator
  | .condemned e _ => e.locator = locator
  | _ => false

def Unentered (locator : Locator) (ds : List Effect) : Prop :=
  ∀ tier time, .entered locator tier time ∉ ds

/-- Gone or condemned. -/
def Closed (row? : Option LedgerRow) : Prop := ∀ row, row? = some row → row.condemnedAt.isSome = true

theorem Unentered.cons {locator : Locator} {d : Effect} {ds : List Effect}
    (unentered : Unentered locator (d :: ds)) :
    (∀ tier time, d ≠ .entered locator tier time) ∧ Unentered locator ds :=
  ⟨fun tier time same => unentered tier time (same ▸ List.mem_cons_self),
    fun tier time member => unentered tier time (List.mem_cons_of_mem _ member)⟩

theorem Closed.unheld {row? : Option LedgerRow} {row : LedgerRow} (closed : Closed row?)
    (present : row? = some row) : row.condemnedAt ≠ none := by
  intro unmarked
  have marked := closed row present
  rw [unmarked] at marked
  cases marked

namespace RowStep

variable {locator : Locator} {d : Effect} {before after : Option LedgerRow}

/-- What is closed stays so, and nobody decides about it again. -/
theorem closed (step : RowStep locator d before after) (closed : Closed before)
    (unentered : ∀ tier time, d ≠ .entered locator tier time) :
    Closed after ∧ d.decides locator = false := by
  cases step with
  | other apart =>
    refine ⟨closed, ?_⟩
    cases d <;> simp_all [Effect.decides, Effect.target?]
  | entered stored => exact (unentered _ _ rfl).elim
  | claimed free => exact (closed.unheld rfl free.2).elim
  | renewed held => exact (closed.unheld rfl held.2.2).elim
  | unclaimed held => exact (closed.unheld rfl held.2.2).elim
  | released held => exact (closed.unheld rfl held.2.2).elim
  | condemned here unchanged => exact (closed.unheld rfl unchanged.1).elim
  | removed => exact ⟨by rintro row ⟨⟩, rfl⟩

theorem closed_of_decides (step : RowStep locator d before after)
    (decides : d.decides locator = true) : Closed after := by
  cases step with
  | other apart => cases d <;> simp_all [Effect.decides, Effect.target?]
  | released held => rintro row ⟨⟩
  | condemned here unchanged => rintro row ⟨⟩; rfl
  | _ => cases decides

/-- A held row is held on by the same, unless it is given back or closed. -/
theorem held_on {holder : RecordField} {row : LedgerRow}
    (step : RowStep locator d (some row) after) (held : row.HeldFor holder)
    (kept : d ≠ .unclaimed locator holder) :
    (∃ row', after = some row' ∧ row'.HeldFor holder) ∨ Closed after := by
  cases step with
  | other apart => exact .inl ⟨row, rfl, held⟩
  | claimed free => exact nomatch free.1.symm.trans held.1
  | renewed held' => exact .inl ⟨_, rfl, held⟩
  | unclaimed held' => exact (kept (by rw [held.unique held'])).elim
  | released held' => exact .inr nofun
  | condemned here unchanged => exact .inr (by rintro row ⟨⟩; rfl)
  | removed => exact .inr nofun

theorem condemned_same {row : LedgerRow} (step : RowStep locator d (some row) after)
    (marked : row.condemnedAt ≠ none) (unremoved : d ≠ .removed locator) : after = some row := by
  cases step with
  | other apart => rfl
  | claimed free => exact (marked free.2).elim
  | renewed held => exact (marked held.2.2).elim
  | unclaimed held => exact (marked held.2.2).elim
  | released held => exact (marked held.2.2).elim
  | condemned here unchanged => exact (marked unchanged.1).elim
  | removed => exact (unremoved rfl).elim

theorem gone_stays (step : RowStep locator d none after)
    (unentered : ∀ tier time, d ≠ .entered locator tier time) : after = none := by
  cases step with
  | other apart => rfl
  | entered stored => exact (unentered _ _ rfl).elim
  | removed => rfl

end RowStep

namespace RowRun

variable {locator : Locator} {ds ds' : List Effect} {before after : Option LedgerRow}

theorem append_iff : RowRun locator (ds ++ ds') before after ↔
    ∃ between, RowRun locator ds before between ∧ RowRun locator ds' between after := by
  constructor
  · intro run
    induction ds generalizing before with
    | nil => exact ⟨before, .nil, run⟩
    | cons d ds ih =>
      cases run with
      | cons step rest =>
        obtain ⟨between, first, second⟩ := ih rest
        exact ⟨between, .cons step first, second⟩
  · rintro ⟨between, first, second⟩
    induction first with
    | nil => exact second
    | cons step rest ih => exact .cons step (ih second)

theorem closed (run : RowRun locator ds before after) (closed : Closed before)
    (unentered : Unentered locator ds) :
    Closed after ∧ ds.countP (Effect.decides locator) = 0 := by
  induction run with
  | nil => exact ⟨closed, rfl⟩
  | cons step rest ih =>
    obtain ⟨still, undecided⟩ := step.closed closed unentered.cons.1
    obtain ⟨stays, none⟩ := ih still unentered.cons.2
    exact ⟨stays, by rw [List.countP_cons, none, undecided]; rfl⟩

/-- Releases and condemnations of one entry: one succeeds at most. -/
theorem decided_once (run : RowRun locator ds before after) (unentered : Unentered locator ds) :
    ds.countP (Effect.decides locator) ≤ 1 := by
  induction run with
  | nil => exact Nat.zero_le _
  | @cons d ds _ _ _ step rest ih =>
    rw [List.countP_cons]
    by_cases decides : d.decides locator = true
    · have none := (rest.closed (step.closed_of_decides decides) unentered.cons.2).2
      simp [none, decides]
    · rw [if_neg decides]
      exact ih unentered.cons.2

theorem held_on {holder : RecordField} (run : RowRun locator ds before after)
    (unentered : Unentered locator ds) (kept : .unclaimed locator holder ∉ ds)
    (held : (∃ row, before = some row ∧ row.HeldFor holder) ∨ Closed before) :
    (∃ row, after = some row ∧ row.HeldFor holder) ∨ Closed after := by
  induction run with
  | nil => exact held
  | cons step rest ih =>
    obtain ⟨first, kept⟩ := List.ne_and_not_mem_of_not_mem_cons kept
    apply ih unentered.cons.2 kept
    rcases held with ⟨row, rfl, held⟩ | closed
    · exact step.held_on held (Ne.symm first)
    · exact .inr (step.closed closed unentered.cons.1).1

theorem condemned_stays {row : LedgerRow} (run : RowRun locator ds before after)
    (present : before = some row) (marked : row.condemnedAt ≠ none)
    (unremoved : .removed locator ∉ ds) : after = some row := by
  induction run with
  | nil => exact present
  | cons step rest ih =>
    obtain ⟨first, unremoved⟩ := List.ne_and_not_mem_of_not_mem_cons unremoved
    subst present
    exact ih (step.condemned_same marked (Ne.symm first)) unremoved

theorem gone_stays (run : RowRun locator ds before after) (gone : before = none)
    (unentered : Unentered locator ds) : after = none := by
  induction run with
  | nil => exact gone
  | cons step rest ih =>
    subst gone
    exact ih (step.gone_stays unentered.cons.1) unentered.cons.2

theorem isOf {tier : Tier} (run : RowRun locator ds before after) (unentered : Unentered locator ds)
    (kind : ∀ row, before = some row → row.IsOf tier) (row : LedgerRow) (present : after = some row) :
    row.IsOf tier := by
  induction run with
  | nil => exact kind row present
  | @cons d ds before between after step rest ih =>
    refine ih unentered.cons.2 (fun row' present' => ?_) present
    subst present'
    cases before with
    | none => exact nomatch step.gone_stays unentered.cons.1
    | some row => exact step.isOf (kind row rfl)

end RowRun

namespace Vault

def after (v : Vault) : List Request → Vault
  | [] => v
  | r :: rest => (v.answer r).2.after rest

def effects (v : Vault) : List Request → List Effect
  | [] => []
  | r :: rest => (r.effect? (v.answer r).1).toList ++ (v.answer r).2.effects rest

theorem after_append (v : Vault) (rs rs' : List Request) :
    v.after (rs ++ rs') = (v.after rs).after rs' := by
  induction rs generalizing v with
  | nil => rfl
  | cons r rest ih => exact ih _

theorem effects_append (v : Vault) (rs rs' : List Request) :
    v.effects (rs ++ rs') = v.effects rs ++ (v.after rs).effects rs' := by
  induction rs generalizing v with
  | nil => rfl
  | cons r rest ih => simp only [List.cons_append, effects, after, ih, List.append_assoc]

theorem answer_run (v : Vault) (r : Request) (locator : Locator) :
    RowRun locator (r.effect? (v.answer r).1).toList (v.row locator) ((v.answer r).2.row locator) := by
  have leaves := r.answer_leaves v
  unfold Request.Leaves at leaves
  split at leaves
  · next d effect => rw [effect]; exact .cons (leaves.ledger locator) .nil
  · next silent => rw [silent, row, row, leaves.ledger]; exact .nil

theorem after_run (v : Vault) (rs : List Request) (locator : Locator) :
    RowRun locator (v.effects rs) (v.row locator) ((v.after rs).row locator) := by
  induction rs generalizing v with
  | nil => exact .nil
  | cons r rest ih => exact RowRun.append_iff.2 ⟨_, v.answer_run r locator, ih _⟩

structure Refuses (v : Vault) (locator : Locator) : Prop where
  claim : ∃ e : Entry, e.locator = locator ∧ v.row locator = some e.row ∧ ∀ holder time,
    (v.answer (.claim locator holder time)).1 = .ok (.conflict e)
  unclaim : ∀ holder, (v.answer (.unclaim locator holder)).1 = .ok false
  release : ∀ holder, (v.answer (.release locator holder)).1 = .ok false
  condemn : ∀ e time, e.locator = locator → (v.answer (.condemn e time)).1 = .ok false

structure Misses (v : Vault) (locator : Locator) : Prop where
  claim : ∀ holder time, (v.answer (.claim locator holder time)).1 = .ok .missing
  unclaim : ∀ holder, (v.answer (.unclaim locator holder)).1 = .ok false
  release : ∀ holder, (v.answer (.release locator holder)).1 = .ok false
  condemn : ∀ e time, e.locator = locator → (v.answer (.condemn e time)).1 = .ok false
  remove : (v.answer (.remove locator)).1 = .ok false

theorem misses {v : Vault} {locator : Locator} (gone : v.row locator = none) : v.Misses locator := by
  have absent : v.ledger.find? locator = none := gone
  constructor
  · intro holder time
    simp only [answer, Ledger.claim, absent]
  · intro holder
    simp only [answer, Ledger.unclaim, absent]
  · intro holder
    simp only [answer, Ledger.release, absent]
  · rintro e time rfl
    simp only [answer, Ledger.condemn, absent]
  · simp only [answer, Ledger.remove, LocatorMap.contains, absent, Option.isSome_none]

end Vault

/-- Record, field and time come together, so the row of a stored tier reads as an entry. -/
theorem LedgerRow.IsOf.entry {row : LedgerRow} {tier : Tier} (kind : row.IsOf tier) (locator : Locator) :
    ∃ e : Entry, e.locator = locator ∧ e.tier = tier ∧ row = e.row := by
  obtain ⟨name, writtenAt, record, field, claimedAt, condemnedAt⟩ := row
  obtain ⟨rfl, -, whole⟩ := kind
  rcases whole with ⟨rfl, rfl, rfl⟩ | ⟨holder, time, rfl, rfl, rfl⟩
  · exact ⟨⟨locator, tier, writtenAt, none, none, condemnedAt⟩, rfl, rfl, rfl⟩
  · exact ⟨⟨locator, tier, writtenAt, some holder, some time, condemnedAt⟩, rfl, rfl, rfl⟩

theorem Vault.refuses {v : Vault} {locator : Locator} {row : LedgerRow} {tier : Tier}
    (present : v.row locator = some row) (marked : row.condemnedAt ≠ none) (kind : row.IsOf tier) :
    v.Refuses locator := by
  obtain ⟨e, here, -, read⟩ := kind.entry locator
  have found : v.ledger.find? locator = some row := present
  have bound : ¬row.Claimable := fun free => marked free.2
  have unheld (holder : RecordField) : ¬row.HeldFor holder := fun held => marked held.2.2
  have moved (e : Entry) : ¬row.Unchanged e := fun unchanged => marked unchanged.1
  constructor
  · refine ⟨e, here, read ▸ present, fun holder time => ?_⟩
    simp only [answer, Ledger.claim, found, bound, unheld, if_false,
      LedgerRow.toEntry_eq_ok.2 ⟨here, read⟩, Except.map]
  · intro holder
    simp only [answer, Ledger.unclaim, found, unheld, if_false]
  · intro holder
    simp only [answer, Ledger.release, found, unheld, if_false]
  · rintro e time rfl
    simp only [answer, Ledger.condemn, found, moved, if_false]

/-- What the answers to some requests have to do with one another, as far as one entry is
concerned that none of them enters anew. -/
structure Contest (v : Vault) (locator : Locator) (rs : List Request) : Prop where
  /-- A claim is granted newly only while the row is free. -/
  free : ∀ earlier holder time later, rs = earlier ++ .claim locator holder time :: later →
    ((v.after earlier).answer (.claim locator holder time)).1 = .ok .claimed →
    ∃ row, (v.after earlier).row locator = some row ∧ row.Claimable
  /-- Before it is granted to another holder the first gives it back. -/
  exclusive : ∀ earlier between later d d' a b time time',
    v.effects rs = earlier ++ d :: (between ++ d' :: later) → d.Claims locator a time →
    d'.Claims locator b time' → a ≠ b → .unclaimed locator a ∈ between
  /-- Of all releases and condemnations one succeeds at most. -/
  decided : (v.effects rs).countP (Effect.decides locator) ≤ 1
  /-- Once it is condemned the row stays as it is until it is removed, and nothing succeeds. -/
  condemned : ∀ earlier e time later, e.locator = locator →
    rs = earlier ++ .condemn e time :: later →
    ((v.after earlier).answer (.condemn e time)).1 = .ok true →
    .removed locator ∉ (v.after (earlier ++ [.condemn e time])).effects later →
    (v.after rs).row locator = (v.after (earlier ++ [.condemn e time])).row locator ∧
      (v.after rs).Refuses locator
  /-- Once the row is gone nothing succeeds. -/
  gone : ∀ earlier later, rs = earlier ++ later → (v.after earlier).row locator = none →
    (v.after rs).Misses locator
  /-- A request leaves the rows of all other locators. -/
  others : ∀ earlier r later key, rs = earlier ++ r :: later → r.row? ≠ some key →
    (v.after (earlier ++ [r])).row key = (v.after earlier).row key

namespace Contest

variable {v : Vault} {locator : Locator} {rs : List Request}

theorem claimed_free {holder : RecordField} {time : Timestamp}
    (answer : (v.answer (.claim locator holder time)).1 = .ok .claimed) :
    ∃ row, v.row locator = some row ∧ row.Claimable := by
  have leaves := Request.answer_leaves v (.claim locator holder time)
  rw [answer] at leaves
  obtain ⟨row, present, free, -⟩ := (leaves.ledger locator).of_claimed
  exact ⟨row, present, free⟩

theorem handover {earlier between later : List Effect} {d d' : Effect} {a b : RecordField}
    {time time' : Timestamp} (unentered : Unentered locator (v.effects rs))
    (split : v.effects rs = earlier ++ d :: (between ++ d' :: later))
    (first : d.Claims locator a time) (second : d'.Claims locator b time') (apart : a ≠ b) :
    .unclaimed locator a ∈ between := by
  refine Decidable.byContradiction fun kept => ?_
  have run := v.after_run rs locator
  rw [split] at run unentered
  obtain ⟨_, -, run⟩ := RowRun.append_iff.1 run
  cases run with
  | cons step rest =>
    obtain ⟨row, row', -, rfl, held, -⟩ := step.of_claims first
    obtain ⟨before, middle, last⟩ := RowRun.append_iff.1 rest
    have still := middle.held_on (fun tier time member => unentered tier time (by simp [member]))
      kept (.inl ⟨row', rfl, held⟩)
    cases last with
    | cons step' _ =>
      obtain ⟨row, present, taken⟩ :
          ∃ row, before = some row ∧ (row.Claimable ∨ row.HeldFor b) := by
        rcases second with rfl | rfl
        · obtain ⟨row, present, free, -⟩ := step'.of_claimed
          exact ⟨row, present, .inl free⟩
        · cases step' with
          | other aside => exact (aside rfl).elim
          | renewed held => exact ⟨_, rfl, .inr held⟩
      rcases still with ⟨row', present', held⟩ | closed
      · obtain rfl : row = row' := Option.some.inj (present.symm.trans present')
        rcases taken with free | held'
        · exact nomatch free.1.symm.trans held.1
        · exact apart (held.unique held')
      · exact closed.unheld present (taken.elim (·.2) (·.2.2))

theorem condemned_refuses {earlier later : List Request} {e : Entry} {time : Timestamp} {tier : Tier}
    (kind : ∀ row, v.row e.locator = some row → row.IsOf tier)
    (unentered : Unentered e.locator (v.effects (earlier ++ .condemn e time :: later)))
    (answer : ((v.after earlier).answer (.condemn e time)).1 = .ok true)
    (unremoved : .removed e.locator ∉ (v.after (earlier ++ [.condemn e time])).effects later) :
    (v.after (earlier ++ .condemn e time :: later)).row e.locator =
        (v.after (earlier ++ [.condemn e time])).row e.locator ∧
      (v.after (earlier ++ .condemn e time :: later)).Refuses e.locator := by
  have leaves := Request.answer_leaves (v.after earlier) (.condemn e time)
  rw [answer] at leaves
  obtain ⟨row, -, -, present⟩ := (leaves.ledger e.locator).of_condemned
  have condemned : (v.after (earlier ++ [.condemn e time])).row e.locator =
      some { row with condemnedAt := some time } := by
    rw [Vault.after_append]
    exact present
  have run := Vault.after_run (v.after (earlier ++ [.condemn e time])) later e.locator
  rw [← Vault.after_append, List.append_assoc, List.singleton_append] at run
  have stays := run.condemned_stays condemned (by simp) unremoved
  have stillOf := (v.after_run _ e.locator).isOf unentered kind _ stays
  exact ⟨stays.trans condemned.symm, Vault.refuses stays (by simp) stillOf⟩

end Contest

/-- From its entry on, and until it is entered anew, of all clients of an entry one wins:
whatever requests come in whatever order. -/
theorem entry_contested {v : Vault} {locator : Locator} {tier : Tier} {time : Timestamp}
    {rs : List Request} (entered : (v.answer (.incubate locator tier time)).1 = .ok ())
    (unentered : Unentered locator ((v.after [.incubate locator tier time]).effects rs)) :
    Contest (v.after [.incubate locator tier time]) locator rs := by
  have kind (row : LedgerRow)
      (present : (v.after [.incubate locator tier time]).row locator = some row) : row.IsOf tier := by
    have leaves := Request.answer_leaves v (.incubate locator tier time)
    rw [entered] at leaves
    have step := leaves.ledger locator
    change RowStep _ _ _ ((v.after [.incubate locator tier time]).row locator) at step
    rw [present] at step
    generalize v.ledger.find? locator = before at step
    cases step with
    | other apart => exact (apart rfl).elim
    | entered stored => exact ⟨rfl, stored, .inl ⟨rfl, rfl, rfl⟩⟩
  generalize v.after [.incubate locator tier time] = v at kind unentered
  constructor
  · exact fun _ _ _ _ _ => Contest.claimed_free
  · exact fun _ _ _ _ _ _ _ _ _ => Contest.handover unentered
  · exact (v.after_run rs locator).decided_once unentered
  · rintro earlier e time later rfl rfl
    exact Contest.condemned_refuses kind unentered
  · rintro earlier later rfl gone
    rw [Vault.effects_append] at unentered
    rw [Vault.after_append]
    apply Vault.misses
    exact (Vault.after_run _ later locator).gone_stays gone
      fun tier time member => unentered tier time (List.mem_append_right _ member)
  · rintro earlier r later key rfl aside
    rw [Vault.after_append]
    exact Request.row_other aside

/-- Against a claim a stale condemnation fails, and the second of two releases. -/
theorem entry_released_once :
    let v := (Vault.empty "" false 0).after [.incubate [0] .medium 0]
    let holder : RecordField := ⟨⟨"r"⟩, ⟨"f"⟩⟩
    let rs : List Request := [.claim [0] holder 1, .condemn (.written [0] .medium 0) 2,
      .release [0] holder, .release [0] holder]
    v.effects rs = [.claimed [0] holder 1, .released [0] holder] ∧ Contest v [0] rs := by
  refine ⟨rfl, entry_contested rfl ?_⟩
  intro tier time member
  cases member with
  | tail _ member => cases member with
    | tail _ member => cases member

end BlobLifecycle
