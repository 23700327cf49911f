import BlobLifecycle.Proofs.Tracking

/-! One monitor against its clients. Only the holder of the lock removes rows, and what it
is about to delete still has its condemned row; a confirmed handle has none, for good. -/
namespace BlobLifecycle

theorem locked_cons {own : List Effect} {d : Effect} (taken : d ≠ .locked) (free : d ≠ .unlocked) :
    Locked (d :: own) ↔ Locked own := by
  simp [Locked, taken.symm, free.symm]

/-- What is doomed by now was so before, unless the last effect doomed it. -/
theorem Doomed.of_cons {own : List Effect} {d : Effect} {e : Entry} (doomed : Doomed (d :: own) e) :
    (d = .found e ∧ e.condemnedAt.isSome = true) ∨ (∃ time, d = .condemned e time) ∨
      (Doomed own e ∧ d ≠ .removed e.locator) := by
  obtain ⟨later, mark, earlier, same, unremoved, marked⟩ := doomed
  cases later with
  | nil =>
    obtain ⟨rfl, rfl⟩ := List.cons.inj same
    exact marked.imp id .inl
  | cons first later =>
    obtain ⟨rfl, rfl⟩ := List.cons.inj same
    refine .inr (.inr ⟨⟨later, mark, earlier, rfl, ?_, marked⟩, ?_⟩)
    · exact fun member => unremoved (List.mem_cons_of_mem _ member)
    · rintro rfl
      exact unremoved List.mem_cons_self

theorem RowStep.condemned_stays {locator : Locator} {d : Effect} {row : LedgerRow}
    {after : Option LedgerRow} (step : RowStep locator d (some row) after)
    (marked : row.condemnedAt.isSome = true) (kept : d ≠ .removed locator) :
    ∃ row', after = some row' ∧ row'.condemnedAt.isSome = true := by
  cases step with
  | other apart => exact ⟨row, rfl, marked⟩
  | claimed free => exact ⟨_, rfl, marked⟩
  | renewed held => exact ⟨_, rfl, marked⟩
  | unclaimed held => exact ⟨_, rfl, marked⟩
  | released held => rw [held.2.2] at marked; cases marked
  | condemned here unchanged => exact ⟨_, rfl, rfl⟩
  | removed => exact (kept rfl).elim

structure Guarded (w : World) : Prop where
  locked : ∀ a, w.Running a → Locked (w.own a) → w.vault.isSweeping = true
  unique : ∀ a b, w.Running a → w.Running b → Locked (w.own a) → Locked (w.own b) → a = b
  doomed : ∀ a e, w.Running a → Locked (w.own a) → Doomed (w.own a) e →
    ∃ row, w.vault.row e.locator = some row ∧ row.condemnedAt.isSome = true

namespace Guarded

variable {s : Setting} {w w' : World} {a b : Actor} {d : Effect}

theorem initial (started : w.Initial) : Guarded w :=
  ⟨fun a running => (started.idle a running).elim, fun a _ running => (started.idle a running).elim,
    fun a _ running => (started.idle a running).elim⟩

theorem still (guarded : Guarded w) (still : w.Still s w') : Guarded w' := by
  have own (a : Actor) : w'.own a = w.own a := by simp [World.own, still.history]
  have busy {a : Actor} (running : w'.Running a) (locked : Locked (w'.own a)) :
      w.Running a ∧ Locked (w.own a) := by
    rw [own] at locked
    rcases still.running running with before | idle
    · exact ⟨before, locked⟩
    · rw [idle] at locked
      exact absurd locked.1 List.not_mem_nil
  constructor
  · intro a running locked
    obtain ⟨before, locked⟩ := busy running locked
    rcases still.lock with same | ⟨b, running', locked', ended⟩
    · rw [same]; exact guarded.locked a before locked
    · obtain rfl := guarded.unique a b before running' locked locked'
      exact (ended running).elim
  · intro a b running running' locked locked'
    obtain ⟨before, locked⟩ := busy running locked
    obtain ⟨before', locked'⟩ := busy running' locked'
    exact guarded.unique a b before before' locked locked'
  · intro a e running locked doomed
    obtain ⟨before, locked⟩ := busy running locked
    rw [own] at doomed
    simpa only [still.unmoved.row] using guarded.doomed a e before locked doomed

theorem extend (guarded : Guarded w) (history : w'.history = (a, d) :: w.history)
    (running : ∀ b, w'.Running b → w.Running b)
    (lock : w'.vault.isSweeping = w.vault.isSweeping) (taken : d ≠ .locked) (free : d ≠ .unlocked)
    (doomed : ∀ b e, w.Running b → Locked (w.own b) → Doomed (w'.own b) e →
      ∃ row, w'.vault.row e.locator = some row ∧ row.condemnedAt.isSome = true) : Guarded w' := by
  have same (b : Actor) : Locked (w'.own b) ↔ Locked (w.own b) := by
    by_cases here : b = a
    · subst here
      rw [World.own_cons_self history, locked_cons taken free]
    · rw [World.own_cons_other history here]
  constructor
  · intro b before locked
    rw [lock]
    exact guarded.locked b (running b before) ((same b).1 locked)
  · intro b c before before' locked locked'
    exact guarded.unique b c (running b before) (running c before') ((same b).1 locked)
      ((same c).1 locked')
  · exact fun b e before locked => doomed b e (running b before) ((same b).1 locked)

theorem persists {record : RecordId} {changes : List FieldChange} (guarded : Guarded w)
    (persists : w.Persists s a record changes w') : Guarded w' := by
  refine guarded.extend persists.history persists.running persists.lock (by simp) (by simp) ?_
  intro b e running locked doomed
  have before : Doomed (w.own b) e := by
    by_cases here : b = a
    · subst here
      rw [World.own_cons_self persists.history] at doomed
      rcases doomed.of_cons with ⟨impossible, _⟩ | ⟨_, impossible⟩ | ⟨before, _⟩
      · cases impossible
      · cases impossible
      · exact before
    · rw [World.own_cons_other persists.history here] at doomed
      exact doomed
  rw [persists.unmoved.row]
  exact guarded.doomed b e running locked before

/-- Whoever takes the lock is its only holder, and has doomed nothing yet. -/
theorem locking (guarded : Guarded w) (acts : w.Acts s a .locked w') : Guarded w' := by
  have history := acts.history
  have free : w.vault.isSweeping = false := acts.happens.seen
  have sole {b : Actor} (running : w'.Running b) (locked : Locked (w'.own b)) : b = a := by
    by_cases same : b = a
    · exact same
    · rw [World.own_cons_other history same] at locked
      rw [guarded.locked b (acts.running b running) locked] at free
      cases free
  constructor
  · intro b _ _
    rw [acts.happens.lock]
    rfl
  · intro b c running running' locked locked'
    rw [sole running locked, sole running' locked']
  · intro b e running locked doomed
    obtain rfl := sole running locked
    rw [World.own_cons_self history, acts.locking] at doomed
    rcases doomed.of_cons with ⟨impossible, _⟩ | ⟨_, impossible⟩ | ⟨⟨_, _, _, impossible, _⟩, _⟩
    · cases impossible
    · cases impossible
    · simp at impossible

/-- The lock is given back by its only holder. -/
theorem unlocking (guarded : Guarded w) (acts : w.Acts s a .unlocked w') : Guarded w' := by
  have history := acts.history
  have none {b : Actor} (running : w'.Running b) : ¬Locked (w'.own b) := by
    intro locked
    have same : b = a := by
      by_cases same : b = a
      · exact same
      · rw [World.own_cons_other history same] at locked
        exact guarded.unique b a (acts.running b running) acts.performer locked acts.unlocking
    subst same
    rw [World.own_cons_self history] at locked
    exact locked.2 List.mem_cons_self
  exact ⟨fun b running locked => (none running locked).elim,
    fun b _ running _ locked => (none running locked).elim,
    fun b _ running locked => (none running locked).elim⟩

/-- Who dooms an entry sees or makes its row condemned, and it stays so until the holder of
the lock removes it. -/
theorem doomed_acts (monitored : ∀ n, ¬s.admits (.sweep n)) (guarded : Guarded w)
    (acts : w.Acts s a d w') {e : Entry} (running : w.Running b) (locked : Locked (w.own b))
    (doomed : Doomed (w'.own b) e) :
    ∃ row, w'.vault.row e.locator = some row ∧ row.condemnedAt.isSome = true := by
  have step := acts.row e.locator
  have stays (before : Doomed (w.own b) e) (kept : d ≠ .removed e.locator) :
      ∃ row, w'.vault.row e.locator = some row ∧ row.condemnedAt.isSome = true := by
    obtain ⟨row, present, marked⟩ := guarded.doomed b e running locked before
    rw [present] at step
    exact step.condemned_stays marked kept
  by_cases same : b = a
  · subst same
    rw [World.own_cons_self acts.history] at doomed
    rcases doomed.of_cons with ⟨rfl, marked⟩ | ⟨time, rfl⟩ | ⟨before, kept⟩
    · have seen : w.vault.row e.locator = some e.row := acts.happens.seen
      exact ⟨e.row, (step.unmoved (by simp [Effect.target?])).trans seen, marked⟩
    · obtain ⟨row, _, _, present⟩ := step.of_condemned
      exact ⟨_, present, rfl⟩
    · exact stays before kept
  · rw [World.own_cons_other acts.history same] at doomed
    refine stays doomed ?_
    rintro rfl
    rcases acts.clearing with ⟨n, rfl⟩ | locked'
    · obtain ⟨task, _, lawful, _⟩ := acts.allowed
      exact monitored n lawful.admitted
    · exact same (guarded.unique b a running acts.performer locked locked')

theorem acts (monitored : ∀ n, ¬s.admits (.sweep n)) (guarded : Guarded w)
    (acts : w.Acts s a d w') : Guarded w' := by
  by_cases taken : d = .locked
  · subst taken
    exact guarded.locking acts
  · by_cases free : d = .unlocked
    · subst free
      exact guarded.unlocking acts
    · have lock : d.lock = id := by
        cases d <;> first | rfl | exact (taken rfl).elim | exact (free rfl).elim
      refine guarded.extend acts.history acts.running ?_ taken free ?_
      · rw [acts.happens.lock, lock]
        rfl
      · exact fun b e running locked doomed => guarded.doomed_acts monitored acts running locked doomed

theorem step (monitored : ∀ n, ¬s.admits (.sweep n)) (lawful : w.Lawful s) (guarded : Guarded w)
    (step : Step s w w') : Guarded w' := by
  rcases step.kinds lawful with still | ⟨a, d, acts⟩ | ⟨a, record, changes, persists⟩
  · exact guarded.still still
  · exact guarded.acts monitored acts
  · exact guarded.persists persists

end Guarded

theorem Reachable.guarded {s : Setting} {w : World} (monitored : ∀ n, ¬s.admits (.sweep n))
    (reached : Reachable s w) : Guarded w :=
  reached.induction (fun _ => .initial) fun _ _ before guarded step =>
    guarded.step monitored before.lawful step

/-- Whoever confirms knows handles of entered content, and what it missed has no row. -/
def World.Knows (w : World) : Prop :=
  ∀ a references known rest, w.tasks a = some ⟨.confirming references known, rest⟩ →
    ∀ h ∈ known, h.tier.isStored = true → (∃ tier, w.Enters tier h.locator) ∧
      (.missed h.locator ∈ w.own a → w.Closed h.locator)

/-- A confirmation goes on as it was, or begins with what writers were given so far. -/
theorem Step.confirming {s : Setting} {w w' : World} {a : Actor} {references : List Reference}
    {known : List Handle} {rest : Program (Stage.confirming references known).Result}
    (step : Step s w w') (running : w'.tasks a = some ⟨.confirming references known, rest⟩) :
    (∃ rest, w.tasks a = some ⟨.confirming references known, rest⟩) ∨
      (known = w.returned.map (·.1) ∧ w'.own a = []) := by
  cases step with
  | start admitted idle fresh starts =>
    rcases World.tasks_assign_some running with ⟨rfl, same⟩ | before
    · cases same
      cases starts with
      | confirm => exact .inr ⟨rfl, fresh⟩
    · exact .inl ⟨rest, before⟩
  | exchange before outcome =>
    rcases World.tasks_assign_some running with ⟨rfl, same⟩ | before
    · cases same
      exact .inl ⟨_, before⟩
    · exact .inl ⟨rest, before⟩
  | turn before turns =>
    rcases World.tasks_assign_some running with ⟨rfl, same⟩ | before
    · cases same
      cases turns
    · exact .inl ⟨rest, before⟩
  | deliver before => exact .inl ⟨rest, (World.tasks_assign_some running).resolve_left (by simp)⟩
  | persist before timely written =>
    rcases World.tasks_assign_some running with ⟨rfl, same⟩ | before
    · cases same
    · exact .inl ⟨rest, before⟩
  | stop before => exact .inl ⟨rest, (World.tasks_assign_some running).resolve_left (by simp)⟩
  | tick later => exact .inl ⟨rest, running⟩
  | edit allowed => exact .inl ⟨rest, running⟩

/-- An effect that missed an entry found no row, then and right after. -/
theorem World.Acts.missing {s : Setting} {w w' : World} {a : Actor} {locator : Locator}
    (acts : w.Acts s a (.missed locator) w') : w'.vault.row locator = none := by
  have seen : w.vault.row locator = none := acts.happens.seen
  exact ((acts.row locator).unmoved (by simp [Effect.target?])).trans seen

theorem World.Knows.step {s : Setting} {w w' : World} (reached : Reachable s w) (knows : w.Knows)
    (step : Step s w w') : w'.Knows := by
  have lawful := reached.lawful
  have grown := step.grows lawful
  intro a references known rest running h member stored
  rcases step.confirming running with ⟨rest', before⟩ | ⟨rfl, fresh⟩
  · obtain ⟨entered, missed⟩ := knows a references known rest' before h member stored
    have entered' : ∃ tier, w'.Enters tier h.locator := entered.imp fun tier enters => enters.mono grown
    refine ⟨entered', fun miss => ?_⟩
    by_cases earlier : .missed h.locator ∈ w.own a
    · exact reached.tracked.closed_step lawful step (missed earlier)
    · rw [World.mem_own] at miss earlier
      rcases step.kinds lawful with still | ⟨b, d, acts⟩ | ⟨b, record, changes, persists⟩
      · rw [still.history] at miss
        exact absurd miss earlier
      · rcases acts.members.1 miss with ⟨rfl, rfl⟩ | miss
        · exact ⟨entered', acts.missing⟩
        · exact absurd miss earlier
      · exact absurd ((persists.members a _ (by simp)).1 miss) earlier
  · obtain ⟨⟨h', content⟩, given, rfl⟩ := List.mem_map.1 member
    obtain ⟨b, delivered, _⟩ := reached.delivered given stored
    refine ⟨⟨h'.tier, delivered.enters.mono grown⟩, fun miss => ?_⟩
    rw [fresh] at miss
    cases miss

theorem Reachable.knows {s : Setting} {w : World} (reached : Reachable s w) : w.Knows := by
  refine reached.induction ?_ fun w w' before knows step => knows.step before step
  intro w started a references known rest running
  rw [started.tasks] at running
  cases running

theorem Reachable.confirmed_closed {s : Setting} {w : World} (reached : Reachable s w) {a : Actor}
    {references : List Reference} {known : List Handle} {r : Reference}
    (confirmed : w.tasks a = some ⟨.confirming references known, .done (.ok ())⟩)
    (listed : r ∈ storedReferences references) (given : r.handle ∈ known) :
    w.Closed r.handle.locator := by
  obtain ⟨_, _, _, settled⟩ := reached.lawful a _ confirmed
  have stored : r.handle.tier.isStored = true := (List.mem_filter.1 listed).2
  rcases settled rfl r listed with released | missed
  · exact reached.tracked.released a _ r.holder (World.mem_own.1 released)
  · exact (reached.knows a references known _ confirmed r.handle given stored).2 missed

theorem Reachable.closed_stays {s : Setting} {w w' : World} {locator : Locator}
    (reached : Reachable s w) (leads : Leads s w w') (closed : w.Closed locator) :
    w'.Closed locator := by
  induction leads with
  | refl => exact closed
  | tail leads step ih =>
    have before := reached.leads leads
    exact before.tracked.closed_step before.lawful step ih

/-- The sweeps of one monitor, with anyone else and with records that change at will. -/
def Setting.monitored (grace : Int) : Setting where
  grace := grace
  admits := fun a => ∀ n, a ≠ .sweep n
  edits := True
  conflicts := fun _ _ => False
  discards := fun _ _ => True
  persists := fun _ _ _ _ _ => True

/-- After a confirmation has succeeded, no sweep deletes the content of its handles. -/
theorem confirmed_never_deleted {grace : Int} {w w' : World} {a b : Actor}
    {references : List Reference} {known : List Handle} {r : Reference}
    (reached : Reachable (.monitored grace) w)
    (confirmed : w.tasks a = some ⟨.confirming references known, .done (.ok ())⟩)
    (listed : r ∈ storedReferences references) (given : r.handle ∈ known)
    (leads : Leads (.monitored grace) w w') (sweeps : b.sweeps = true) (tier : Tier) :
    w'.pending? b ≠ some (.delete tier r.handle.locator) := by
  intro deleting
  have closed := reached.closed_stays leads (reached.confirmed_closed confirmed listed given)
  replace reached := reached.leads leads
  have monitored (n : Nat) : ¬(Setting.monitored grace).admits (.sweep n) := fun admitted => admitted n rfl
  obtain ⟨e, _, here, doomed⟩ := reached.lawful.deletes sweeps deleting
  obtain ⟨stage, next, running⟩ := World.pending?_eq_some.1 deleting
  obtain ⟨row, present, _⟩ := (reached.guarded monitored).doomed b e ⟨_, running⟩
    (reached.lawful.deletes_locked monitored sweeps deleting) doomed
  rw [here, closed.2] at present
  cases present

namespace Confirmed

open Sample

def reserved : World :=
  written.launch (.caller 0) ⟨.reserving [reference], reserve [reference]⟩ 3

def confirmed : World :=
  reserved.launch (.caller 1) ⟨.confirming [reference] [handle], confirm [reference]⟩ 1

def swept : World :=
  (abandon confirmed).launch (.monitor 0) ⟨.monitoring, runSweep ⟨1000, 2⟩ 1⟩ 5

theorem reached : Reachable (.monitored 1000) confirmed := by
  have writing : Reachable (.monitored 1000) written :=
    reached_written (by simp [Setting.monitored])
  have reserving : Leads (.monitored 1000) written reserved :=
    World.leads_start (by simp [Setting.monitored]) rfl rfl .reserve 3
  have confirming : Leads (.monitored 1000) reserved confirmed :=
    World.leads_start (by simp [Setting.monitored]) rfl rfl .confirm 1
  exact writing.leads (reserving.trans confirming)

theorem leads_swept : Leads (.monitored 1000) confirmed swept := by
  have waiting : Leads (.monitored 1000) confirmed (abandon confirmed) :=
    Sample.leads_abandon (by simp [Setting.monitored]) rfl rfl (by decide)
  exact waiting.trans
    (World.leads_start (by simp [Setting.monitored]) rfl rfl (.monitor (Int.le_refl _)) 5)

end Confirmed

/-- The monitor deletes an abandoned write, and not the confirmed content beside it. -/
theorem abandoned_write_apart_from_confirmed :
    ∃ w w', Reachable (.monitored 1000) w ∧ Leads (.monitored 1000) w w' ∧
      w.tasks (.caller 1) = some ⟨.confirming [Sample.reference] [Sample.handle], .done (.ok ())⟩ ∧
      w'.pending? (.monitor 0) = some (.delete .medium [0, 0]) ∧
      w'.pending? (.monitor 0) ≠ some (.delete .medium [0]) :=
  ⟨Confirmed.confirmed, Confirmed.swept, Confirmed.reached, Confirmed.leads_swept, rfl, rfl,
    confirmed_never_deleted (a := .caller 1) (b := .monitor 0) (r := Sample.reference)
      Confirmed.reached rfl (List.mem_singleton_self _) (List.mem_singleton_self _)
      Confirmed.leads_swept rfl .medium⟩

end BlobLifecycle
