import BlobLifecycle.Proofs.Attachment
import BlobLifecycle.Proofs.Storing

/-! One commit at a time, each of which may crash. Content that a live version holds is
readable, unless a commit deleted it and a later one gave it to the record again: a claim
that was never confirmed lets that later commit reserve what is no longer there. -/
namespace BlobLifecycle

/-- The records after a commit that was told the truth: the new values take the place of the
replaced ones, and their stored handles are handles that writers were given. -/
structure Repository.Commits (returned : List (Handle × Bytes)) (record : RecordId)
    (changes : List FieldChange) (before after : Repository) : Prop
    extends before.Writes record changes after where
  reflected : ∀ c ∈ changes, c.scope.replacesValue c.mutation = true →
    ∀ values, after.fieldHistory record c.field = .ok values →
    ∀ v ∈ values, c.after = some v ∨ v ∈ c.retained
  genuine : ∀ c ∈ changes, ∀ h, Hold c.after.toList h → h.tier.isStored = true →
    ∃ content, (h, content) ∈ returned

/-- Sweeps, writers and commits, of which no two run at the same time. -/
def Setting.sequential (grace : Int) : Setting where
  grace := grace
  admits := fun a => ∀ n, a ≠ .caller n
  edits := False
  conflicts := fun _ _ => True
  discards := fun plan handles => handles = plan.toDelete
  persists := fun returned record changes before after => before.Commits returned record changes after

theorem Setting.sequential_commits (grace : Int) : (sequential grace).Commits :=
  ⟨fun n admitted => admitted n rfl, id, fun _ => trivial, fun written => written.toWrites⟩

def Stage.freed : Stage → HandleSet
  | settling _ _ plan => plan.toDelete
  | discarding _ handles => handles
  | _ => []

namespace World

/-- The entry belongs to the holder: it is held, or was released. -/
def Home (w : World) (locator : Locator) (holder : RecordField) : Prop :=
  (∃ row, w.vault.row locator = some row ∧ row.HeldFor holder) ∨
    ∃ b, (b, .released locator holder) ∈ w.history

theorem Home.unique {w : World} {locator : Locator} {holder holder' : RecordField}
    (tracked : Tracked w) (once : w.ReleasedOnce) (first : w.Home locator holder)
    (second : w.Home locator holder') : holder = holder' := by
  rcases first with ⟨row, present, held⟩ | ⟨a, released⟩ <;>
    rcases second with ⟨row', present', held'⟩ | ⟨b, released'⟩
  · cases present.symm.trans present'
    exact held.unique held'
  · exact (tracked.unreleased present b holder' released').elim
  · exact (tracked.unreleased present' a holder released).elim
  · exact once a b locator holder holder' released released'

end World

structure Surviving (w : World) : Prop where
  alone : ∀ record other m n, w.Running (.commit record m) → w.Running (.commit other n) →
    Actor.commit record m = .commit other n
  genuine : ∀ holder h, w.Carries holder h → h.tier.isStored = true →
    ∃ content, (h, content) ∈ w.returned
  homed : ∀ holder tier locator, w.Live holder tier locator → tier.isStored = true →
    w.Home locator holder
  freed : ∀ a task, w.tasks a = some task → ∀ h ∈ task.stage.freed, h.tier.isStored = true →
    ∀ holder, ¬w.Live holder h.tier h.locator
  /-- What was deleted is in no record, or a record was given it since. -/
  deleted : ∀ later a tier locator earlier, w.history = later ++ (a, .deleted tier locator) :: earlier →
    tier.isStored = true → (∀ holder, ¬w.Live holder tier locator) ∨
      ∃ b references, (b, .persisted references) ∈ later ∧
        ∃ r ∈ references, r.handle.tier = tier ∧ r.handle.locator = locator

namespace Surviving

variable {grace : Int} {w w' : World} {a : Actor} {d : Effect} {holder : RecordField} {tier : Tier}
  {locator : Locator} {record : RecordId} {changes : List FieldChange} {h : Handle}

theorem initial (started : w.Initial) : Surviving w := by
  have dead (holder : RecordField) (h : Handle) : ¬w.Carries holder h := by
    rintro ⟨values, history, v, member, _⟩
    rw [started.records] at history
    cases history
    cases member
  have unheld (holder : RecordField) (tier : Tier) (locator : Locator) :
      ¬w.Live holder tier locator := by
    rintro ⟨h, carries, _⟩
    exact dead holder h carries
  refine ⟨?_, fun holder h carries => (dead holder h carries).elim,
    fun holder tier locator live => (unheld holder tier locator live).elim,
    fun _ _ _ _ _ _ _ => unheld _ _ _, by simp [started.history]⟩
  exact fun _ _ _ _ running => (started.idle _ running).elim

/-- Live content was entered by the writer that was given its handle. -/
theorem enters (reached : Reachable (.sequential grace) w) (surviving : Surviving w)
    (live : w.Live holder tier locator) (stored : tier.isStored = true) : w.Enters tier locator := by
  obtain ⟨h, carries, rfl, rfl⟩ := live
  obtain ⟨content, given⟩ := surviving.genuine holder h carries stored
  obtain ⟨a, delivered, _⟩ := reached.delivered given stored
  exact delivered.enters

/-- Whatever a commit writes belongs to its holder. -/
theorem home_persists (reached : Reachable (.sequential grace) w) (surviving : Surviving w)
    (persists : w.Persists (.sequential grace) a record changes w')
    (live : w'.Live holder tier locator) (stored : tier.isStored = true) : w.Home locator holder := by
  have commits := Setting.sequential_commits grace
  rcases persists.live commits live stored with before | ⟨_, d, member, time, claims⟩
  · exact surviving.homed holder tier locator before stored
  · rcases (reached.attached commits).fresh_claim persists member claims with
      released | ⟨row, present, held, _⟩
    · exact .inr released
    · exact .inl ⟨row, present, held⟩

/-- The new records hold nothing but genuine handles. -/
theorem genuine_persists (surviving : Surviving w)
    (persists : w.Persists (.sequential grace) a record changes w') (carries : w'.Carries holder h)
    (stored : h.tier.isStored = true) : ∃ content, (h, content) ∈ w.returned := by
  have written : w.vault.repository.Commits w.returned record changes w'.vault.repository :=
    persists.written
  obtain ⟨owner, field⟩ := holder
  obtain ⟨values, history, v, member, listed⟩ := carries
  by_cases same : owner = record
  · subst same
    rcases written.origin field values history v member with ⟨old, before, kept⟩ | ⟨c, change, _, new⟩
    · exact surviving.genuine ⟨owner, field⟩ h ⟨old, before, v, kept, listed⟩ stored
    · exact written.genuine c change h (hold_toList.2 ⟨v, new, listed⟩) stored
  · rw [written.others owner field same] at history
    exact surviving.genuine ⟨owner, field⟩ h ⟨values, history, v, member, listed⟩ stored

/-- What a commit frees is in no record once it is written. -/
theorem freed_persists (reached : Reachable (.sequential grace) w) (surviving : Surviving w)
    (persists : w.Persists (.sequential grace) a record changes w')
    (member : h ∈ (BlobPlan.ofChanges record changes).toDelete) (stored : h.tier.isStored = true)
    (holder : RecordField) : ¬w'.Live holder h.tier h.locator := by
  intro live
  have written : w.vault.repository.Commits w.returned record changes w'.vault.repository :=
    persists.written
  obtain ⟨c, change, freed⟩ := BlobPlan.mem_toDelete.1 member
  obtain ⟨replaces, held, unlisted, unretained⟩ := FieldChange.mem_freed.1 freed
  obtain ⟨v, former, listed⟩ := hold_toList.1 held
  obtain ⟨old, history, kept⟩ := written.replaced c change v former
  have before : w.Carries ⟨record, c.field⟩ h := ⟨old, history, v, kept, listed⟩
  -- An entry has one home, so the handle can only be where it was.
  obtain rfl : holder = ⟨record, c.field⟩ :=
    World.Home.unique reached.tracked reached.releasedOnce
      (surviving.home_persists reached persists live stored)
      (surviving.homed _ _ _ before.live stored)
  obtain ⟨h', carries, sameTier, sameLocator⟩ := live
  rw [← sameTier] at stored
  obtain ⟨content, given⟩ := surviving.genuine_persists persists carries stored
  rw [sameTier] at stored
  obtain ⟨content', given'⟩ := surviving.genuine _ h before stored
  obtain ⟨rfl, _⟩ := reached.givenOnce h h' content' content given' given stored
    (by rw [sameTier]; exact stored) sameLocator.symm
  obtain ⟨values, history', v', member', listed'⟩ := carries
  rcases written.reflected c change replaces values history' v' member' with new | retained
  · exact unlisted (hold_toList.2 ⟨v', new, listed'⟩)
  · exact unretained ⟨v', retained, listed'⟩

theorem alone_still (surviving : Surviving w) (still : w.Still (.sequential grace) w')
    {record other : RecordId} {m n : Nat} (first : w'.Running (.commit record m))
    (second : w'.Running (.commit other n)) : Actor.commit record m = .commit other n := by
  rcases still.tasks with same | ⟨b, task, starts, _, others⟩
  · exact surviving.alone record other m n (same _ first) (same _ second)
  · have alone {record other : RecordId} {k l : Nat} (new : .commit record k = b)
        (old : w.Running (.commit other l)) : False := by
      subst new
      obtain ⟨task', running⟩ := old
      cases starts with
      | commit alone => exact alone other l task' running trivial
    rcases others _ first with new | old <;> rcases others _ second with new' | old'
    · exact new.trans new'.symm
    · exact (alone new old').elim
    · exact (alone new' old).elim
    · exact surviving.alone record other m n old old'

/-- Live content keeps its home whoever acts. -/
theorem homed_acts (reached : Reachable (.sequential grace) w) (surviving : Surviving w)
    (acts : w.Acts (.sequential grace) a d w') (live : w.Live holder tier locator)
    (stored : tier.isStored = true) : w'.Home locator holder := by
  have commits := Setting.sequential_commits grace
  have attached := reached.attached commits
  have entered := surviving.enters reached live stored
  rcases surviving.homed holder tier locator live stored with ⟨row, present, held⟩ | ⟨b, released⟩
  · cases present' : w'.vault.row locator with
    | some row' =>
      exact .inl ⟨row', present', attached.held_acts commits reached.tracked reached.timed acts live
        entered present'⟩
    | none =>
      have step := acts.row locator
      rw [present, present'] at step
      cases step with
      | released held' =>
        obtain rfl := held'.unique held
        exact .inr ⟨a, acts.members.2 (.inl ⟨rfl, rfl⟩)⟩
      | removed =>
        obtain ⟨e, rfl, doomed⟩ := acts.removing
        exact ((attached.dead_of_doomed doomed).gone.unheld present holder held).elim
  · exact .inr ⟨b, acts.grows released⟩

end Surviving

/-- Content is deleted by a sweep that doomed its entry, or by a commit that freed it. -/
theorem World.Acts.deleting {s : Setting} {w w' : World} {a : Actor} {tier : Tier} {locator : Locator}
    (acts : w.Acts s a (.deleted tier locator) w') :
    (a.sweeps = true ∧ ∃ e, e.tier = tier ∧ e.locator = locator ∧ Doomed (w.own a) e) ∨
      (∃ record n, a = .commit record n) ∧ tier.isStored = true ∧ ∃ task, w.tasks a = some task ∧
        ∃ h ∈ task.stage.freed, h.tier = tier ∧ h.locator = locator := by
  obtain ⟨⟨stage, rest⟩, running, ⟨_, fits, _, _⟩, allowed⟩ := acts.allowed
  cases stage with
  | sweeping => cases a <;> first | exact fits.elim | exact .inl ⟨rfl, allowed⟩
  | monitoring => cases a <;> first | exact fits.elim | exact .inl ⟨rfl, allowed.2⟩
  | discarding record handles =>
    obtain ⟨h, listed, sameTier, sameLocator, stored⟩ := allowed
    cases a <;> first
      | exact fits.elim
      | exact .inr ⟨⟨_, _, rfl⟩, stored, _, running, h, listed, sameTier, sameLocator⟩
  | _ => exact allowed.elim

namespace Surviving

variable {grace : Int} {w w' : World} {a : Actor} {d : Effect} {holder : RecordField} {tier : Tier}
  {locator : Locator}

theorem deleting (reached : Reachable (.sequential grace) w) (surviving : Surviving w)
    (acts : w.Acts (.sequential grace) a (.deleted tier locator) w') (holder : RecordField) :
    ¬w.Live holder tier locator := by
  rcases acts.deleting with ⟨_, e, rfl, rfl, doomed⟩ | ⟨_, stored, task, running, h, listed, rfl, rfl⟩
  · exact ((reached.attached (Setting.sequential_commits grace)).dead_of_doomed doomed).unheld holder
  · exact surviving.freed a task running h listed stored holder

theorem freer (lawful : w.Lawful (.sequential grace)) {task : Task} (running : w.tasks a = some task)
    {h : Handle} (listed : h ∈ task.stage.freed) : ∃ record n, a = .commit record n := by
  obtain ⟨_, fits, _, _⟩ := lawful a task running
  generalize task.stage = stage at fits listed
  cases stage with
  | settling | discarding => cases a <;> first | exact fits.elim | exact ⟨_, _, rfl⟩
  | _ => cases listed

theorem freed_step (reached : Reachable (.sequential grace) w) (surviving : Surviving w)
    (step : Step (.sequential grace) w w') {task : Task} (running : w'.tasks a = some task)
    {h : Handle} (listed : h ∈ task.stage.freed) (stored : h.tier.isStored = true)
    (holder : RecordField) : ¬w'.Live holder h.tier h.locator := by
  have old {task' : Task} (before : w.tasks a = some task') (listed : h ∈ task'.stage.freed)
      (same : w'.vault.repository = w.vault.repository) : ¬w'.Live holder h.tier h.locator :=
    fun live => surviving.freed a task' before h listed stored holder ((World.live_iff same).1 live)
  cases step with
  | start admitted idle fresh starts =>
    rcases World.tasks_assign_some running with ⟨rfl, same⟩ | before
    · cases same
      cases starts <;> cases listed
    · exact old before listed rfl
  | exchange before outcome =>
    have same := outcome.keeps.repository
    rcases World.tasks_assign_some running with ⟨rfl, here⟩ | elsewhere
    · cases here
      exact old before listed same
    · exact old elsewhere listed same
  | turn before turns =>
    rcases World.tasks_assign_some running with ⟨rfl, here⟩ | elsewhere
    · cases here
      cases turns with
      | discard meant =>
        cases meant
        exact old before listed rfl
      | _ => cases listed
    · exact old elsewhere listed rfl
  | deliver before =>
    exact old ((World.tasks_assign_some running).resolve_left (by simp)) listed rfl
  | persist before timely written =>
    obtain ⟨rfl, persists⟩ := reached.lawful.persists before timely written
    rcases World.tasks_assign_some running with ⟨rfl, here⟩ | elsewhere
    · cases here
      exact surviving.freed_persists reached persists listed stored holder
    · -- Two commits do not run at once, and one that is about to write has freed nothing yet.
      obtain ⟨record, m, rfl⟩ := freer reached.lawful elsewhere listed
      obtain ⟨n, rfl⟩ := persists.actor
      cases surviving.alone _ _ m n ⟨_, elsewhere⟩ ⟨_, before⟩
      cases before.symm.trans elsewhere
      cases listed
  | stop before =>
    exact old ((World.tasks_assign_some running).resolve_left (by simp)) listed rfl
  | tick later => exact old running listed rfl
  | edit allowed => exact allowed.elim

theorem deleted_acts (reached : Reachable (.sequential grace) w) (surviving : Surviving w)
    (acts : w.Acts (.sequential grace) a d w') {later earlier : List (Actor × Effect)} {b : Actor}
    (split : w'.history = later ++ (b, .deleted tier locator) :: earlier)
    (stored : tier.isStored = true) : (∀ holder, ¬w'.Live holder tier locator) ∨
      ∃ b references, (b, .persisted references) ∈ later ∧
        ∃ r ∈ references, r.handle.tier = tier ∧ r.handle.locator = locator := by
  have same (holder : RecordField) : w'.Live holder tier locator ↔ w.Live holder tier locator :=
    World.live_iff acts.happens.repository
  simp only [same]
  rw [acts.history] at split
  cases later with
  | nil =>
    obtain ⟨here, _⟩ := List.cons.inj split
    cases here
    exact .inl (surviving.deleting reached acts)
  | cons first later =>
    obtain ⟨_, before⟩ := List.cons.inj split
    refine (surviving.deleted later b tier locator earlier before stored).imp_right ?_
    rintro ⟨c, references, member, given⟩
    exact ⟨c, references, List.mem_cons_of_mem _ member, given⟩

/-- A commit can make live again what was deleted. -/
theorem deleted_persists (surviving : Surviving w) {record : RecordId} {changes : List FieldChange}
    (persists : w.Persists (.sequential grace) a record changes w')
    {later earlier : List (Actor × Effect)} {b : Actor}
    (split : w'.history = later ++ (b, .deleted tier locator) :: earlier)
    (stored : tier.isStored = true) : (∀ holder, ¬w'.Live holder tier locator) ∨
      ∃ b references, (b, .persisted references) ∈ later ∧
        ∃ r ∈ references, r.handle.tier = tier ∧ r.handle.locator = locator := by
  rw [persists.history] at split
  cases later with
  | nil =>
    obtain ⟨here, _⟩ := List.cons.inj split
    cases here
  | cons first later =>
    obtain ⟨rfl, before⟩ := List.cons.inj split
    rcases surviving.deleted later b tier locator earlier before stored with
      unheld | ⟨c, references, member, given⟩
    · by_cases live : ∃ holder, w'.Live holder tier locator
      · obtain ⟨holder, live⟩ := live
        rcases persists.introduces (Setting.sequential_commits grace) live stored with
          impossible | ⟨_, r, listed, _, same⟩
        · exact (unheld holder impossible).elim
        · exact .inr ⟨a, _, List.mem_cons_self, r, (List.mem_filter.1 listed).1, same⟩
      · exact .inl fun holder here => live ⟨holder, here⟩
    · exact .inr ⟨c, references, List.mem_cons_of_mem _ member, given⟩

end Surviving

theorem Step.returned_grows {s : Setting} {w w' : World} (step : Step s w w') :
    w.returned ⊆ w'.returned := by
  cases step with
  | deliver running => exact List.subset_cons_self _ _
  | _ => exact fun _ member => member

namespace Surviving

variable {grace : Int} {w w' : World}

theorem step (reached : Reachable (.sequential grace) w) (surviving : Surviving w)
    (step : Step (.sequential grace) w w') : Surviving w' := by
  have given := step.returned_grows
  have freed (a : Actor) (task : Task) (running : w'.tasks a = some task) (h : Handle)
      (listed : h ∈ task.stage.freed) := surviving.freed_step reached step running listed
  rcases step.kinds reached.lawful with still | ⟨a, d, acts⟩ | ⟨a, record, changes, persists⟩
  · have same : w'.vault.repository = w.vault.repository := still.repository id
    refine ⟨fun _ _ _ _ => surviving.alone_still still, ?_, ?_, freed, ?_⟩
    · intro holder h carries stored
      rw [World.carries_iff same] at carries
      exact (surviving.genuine holder h carries stored).imp fun _ member => given member
    · simpa [World.live_iff same, World.Home, still.unmoved.row, still.history] using surviving.homed
    · simpa [World.live_iff same, still.history] using surviving.deleted
  · have same := acts.happens.repository
    refine ⟨fun record other m n first second => surviving.alone record other m n
      (acts.running _ first) (acts.running _ second), ?_, ?_, freed, ?_⟩
    · intro holder h carries stored
      rw [World.carries_iff same] at carries
      exact (surviving.genuine holder h carries stored).imp fun _ member => given member
    · exact fun holder tier locator live stored =>
        surviving.homed_acts reached acts ((World.live_iff same).1 live) stored
    · exact fun later b tier locator earlier split => surviving.deleted_acts reached acts split
  · refine ⟨fun record other m n first second => surviving.alone record other m n
      (persists.running _ first) (persists.running _ second), ?_, ?_, freed, ?_⟩
    · intro holder h carries stored
      exact (surviving.genuine_persists persists carries stored).imp fun _ member => given member
    · intro holder tier locator live stored
      have home := surviving.home_persists reached persists live stored
      simpa [World.Home, persists.unmoved.row, persists.history] using home
    · exact fun later b tier locator earlier split => surviving.deleted_persists persists split

end Surviving

theorem Reachable.surviving {grace : Int} {w : World} (reached : Reachable (.sequential grace) w) :
    Surviving w :=
  reached.induction (fun _ => .initial) fun _ _ before surviving step => surviving.step before step

/-- Sweeps deleted only what they saw condemned or condemned themselves. -/
def World.Reaped (w : World) : Prop :=
  ∀ a tier locator, (a, .deleted tier locator) ∈ w.history → (∃ record n, a = .commit record n) ∨
    ∃ e, e.tier = tier ∧ e.locator = locator ∧
      ((a, .found e) ∈ w.history ∧ e.condemnedAt.isSome = true ∨
        ∃ time, (a, .condemned e time) ∈ w.history)

theorem Reachable.reaped {s : Setting} {w : World} (reached : Reachable s w) : w.Reaped := by
  refine reached.induction ?_ ?_
  · intro w started a tier locator member
    rw [started.history] at member
    cases member
  · intro w w' before reaped step a tier locator member
    have grown := step.grows before.lawful
    have old (member : (a, .deleted tier locator) ∈ w.history) :
        (∃ record n, a = .commit record n) ∨ ∃ e, e.tier = tier ∧ e.locator = locator ∧
          ((a, .found e) ∈ w'.history ∧ e.condemnedAt.isSome = true ∨
            ∃ time, (a, .condemned e time) ∈ w'.history) := by
      refine (reaped a tier locator member).imp_right ?_
      rintro ⟨e, sameTier, sameLocator, marked⟩
      exact ⟨e, sameTier, sameLocator, marked.imp (fun ⟨found, condemned⟩ => ⟨grown found, condemned⟩)
        fun ⟨time, condemned⟩ => ⟨time, grown condemned⟩⟩
    rcases step.kinds before.lawful with still | ⟨b, d, acts⟩ | ⟨b, record, changes, persists⟩
    · exact old (still.history ▸ member)
    · rw [acts.history] at member
      rcases List.mem_cons.1 member with new | member
      · cases new
        rcases acts.deleting with ⟨_, e, sameTier, sameLocator, doomed⟩ | ⟨commit, _⟩
        · refine .inr ⟨e, sameTier, sameLocator, doomed.marked.imp ?_ ?_⟩
          · exact fun ⟨found, condemned⟩ => ⟨grown (World.mem_own.1 found), condemned⟩
          · exact fun ⟨time, condemned⟩ => ⟨time, grown (World.mem_own.1 condemned)⟩
        · exact .inl commit
      · exact old member
    · exact old ((persists.members a _ (by simp)).1 member)

/-- The object was published, deleted by a commit, and then given to a record again. -/
def World.Revived (w : World) (h : Handle) : Prop :=
  ∃ a b record n references content,
    [(b, .persisted references), (.commit record n, .deleted h.tier h.locator),
      (a, .published h.tier h.locator content)].Sublist w.history ∧
    ∃ r ∈ references, r.handle.SameObject h

/-- Live content that was deleted was deleted by a commit, and became live again since. -/
theorem Surviving.revived {grace : Int} {w : World} (reached : Reachable (.sequential grace) w)
    {holder : RecordField} {h : Handle} (live : w.Live holder h.tier h.locator)
    (stored : h.tier.isStored = true) {later earlier : List (Actor × Effect)} {a b : Actor}
    {content : Bytes} (split : w.history = later ++ (a, .published h.tier h.locator content) :: earlier)
    (deleted : (b, .deleted h.tier h.locator) ∈ later) : w.Revived h := by
  obtain ⟨after, between, same⟩ := List.append_of_mem deleted
  rw [same, List.append_assoc, List.cons_append] at split
  rcases reached.surviving.deleted after b h.tier h.locator _ split stored with
    unheld | ⟨c, references, member, r, listed, sameObject⟩
  · exact (unheld holder live).elim
  · rcases reached.reaped b h.tier h.locator (by rw [split]; simp) with
      ⟨record, n, rfl⟩ | ⟨e, sameTier, sameLocator, marked⟩
    · refine ⟨a, c, record, n, references, content, ?_, r, listed, sameObject⟩
      rw [split]
      refine List.cons_sublist_iff.2 ⟨after, _, rfl, member, List.Sublist.cons_cons _ ?_⟩
      exact List.singleton_sublist.2 (by simp)
    · have attached := reached.attached (Setting.sequential_commits grace)
      have dead : w.Dead e.tier e.locator := by
        rcases marked with ⟨found, condemned⟩ | ⟨time, condemned⟩
        · exact attached.found b e found condemned
        · exact attached.condemned b e time condemned
      rw [sameTier, sameLocator] at dead
      exact (dead.unheld holder live).elim

/-- Every stored handle that a live version holds was given to a writer and is read back as it was
written, unless its object was deleted by a commit and given to a record again. -/
theorem live_content_survives {grace : Int} {w : World} (reached : Reachable (.sequential grace) w)
    {holder : RecordField} {h : Handle} (carries : w.Carries holder h)
    (stored : h.tier.isStored = true) :
    ∃ content, (h, content) ∈ w.returned ∧
      (w.vault.read h.tier h.locator = .ok content ↔ ¬w.Revived h) := by
  obtain ⟨content, given⟩ := reached.surviving.genuine holder h carries stored
  obtain ⟨a, delivered, _⟩ := reached.delivered given stored
  obtain ⟨later, earlier, split⟩ := List.append_of_mem (World.mem_own.1 delivered.published)
  refine ⟨content, given, ?_⟩
  constructor
  · rintro readable ⟨a', b, record, n, references, content', sublist, _⟩
    obtain ⟨after, rest, same, _, sublist⟩ := List.cons_sublist_iff.1 sublist
    obtain ⟨between, before, rfl, deleted, sublist⟩ := List.cons_sublist_iff.1 sublist
    obtain ⟨middle, earlier', rfl⟩ := List.append_of_mem (List.singleton_sublist.1 sublist)
    have split' : w.history = (after ++ (between ++ middle)) ++
        (a', .published h.tier h.locator content') :: earlier' := by
      rw [same]
      simp
    have undeleted := ((reached.shelved.reads _ a' _ _ content' earlier' split' stored content).1
      readable).2
    exact undeleted (.commit record n) (by simp [deleted])
  · intro unrevived
    rw [reached.shelved.reads later a _ _ content earlier split stored]
    exact ⟨rfl, fun b deleted => unrevived (Surviving.revived reached carries.live stored split deleted)⟩

namespace Crashed

open Sample

def value : FieldValue := .path [note, handle]

def clearing : FieldChange := change (some value) none
def removal : BlobPlan := ⟨[], [note, handle]⟩

theorem removal_eq : BlobPlan.ofChanges record [clearing] = removal := by
  have introduced : clearing.introduced = [] := rfl
  have freed : clearing.freed = [note, handle] := rfl
  simp [BlobPlan.ofChanges, FieldChange.references, introduced, freed, sortByLocator,
    HandleSet.union]
  rfl

theorem commits {before after : Option FieldValue} {returned : List (Handle × Bytes)}
    (genuine : ∀ h, Hold after.toList h → h.tier.isStored = true →
      ∃ content, (h, content) ∈ returned) :
    (records before).Commits returned record [change before after] (records after) where
  toWrites := Sample.writes before after
  reflected := by
    intro c listed _ values history v member
    rw [List.mem_singleton.1 listed] at history ⊢
    simp only [records, change, and_self, if_true, Except.ok.injEq] at history
    subst history
    exact .inl (Option.mem_toList.1 member)
  genuine := by
    intro c listed h holds stored
    rw [List.mem_singleton.1 listed] at holds
    exact genuine h holds stored

def reserved : World := written.attach record 0 [setting value] plan 3

/-- The first commit goes no further than to write the record. -/
def crashed : World :=
  (reserved.persist record 0 [setting value] plan (records (some value))).halt (.commit record 0)

def replacing : World := crashed.attach record 1 [clearing] removal 1

/-- The second one takes the value out of the record and deletes the content. -/
def deleted : World :=
  ((replacing.persist record 1 [clearing] removal (records none)).launch (.commit record 1)
    ⟨.discarding record removal.toDelete, deleteNow removal.toDelete⟩ 1).halt (.commit record 1)

def renewed : World := deleted.attach record 2 [setting value] plan 3

def restored : World := renewed.persist record 2 [setting value] plan (records (some value))

theorem leads_attach {w : World} {n k : Nat} {change : FieldChange} {plan : BlobPlan}
    (planned : BlobPlan.ofChanges record [change] = plan) (quiet : w.IsQuiet)
    (fresh : w.own (.commit record n) = []) :
    Leads (.sequential 1000) w (w.attach record n [change] plan k) := by
  refine World.leads_attach planned (by simp [Setting.sequential]) (quiet record n) fresh ?_ k
  intro other m task running
  rw [quiet other m] at running
  cases running

theorem written_quiet : written.IsQuiet := fun _ _ => rfl

theorem crashed_quiet : crashed.IsQuiet := by
  refine World.isQuiet_halt fun other m apart => ?_
  rw [World.tasks_persist_other apart, reserved, World.tasks_attach_other apart]
  exact written_quiet other m

theorem deleted_quiet : deleted.IsQuiet := by
  refine World.isQuiet_halt fun other m apart => ?_
  rw [World.tasks_launch_other apart, World.tasks_persist_other apart, replacing,
    World.tasks_attach_other apart]
  exact crashed_quiet other m

theorem leads_persist {w : World} {n : Nat} {change : FieldChange} {plan : BlobPlan}
    {repository : Repository}
    (reserved : w.tasks (.commit record n) = some ⟨.attaching record [change] plan, .done (.ok ())⟩)
    (clock : w.vault.clock = 1000000)
    (claimed : ∀ d ∈ w.own (.commit record n), d = .read 1000000 ∨
      d.Claims [0] ⟨record, field⟩ 1000000)
    (written : w.vault.repository.Commits w.returned record [change] repository) :
    Leads (.sequential 1000) w (w.persist record n [change] plan repository) := by
  refine .single (.persist reserved ?_ written)
  intro d member locator holder time claims
  rw [clock]
  rcases claimed d member with rfl | rfl | rfl <;> rcases claims with same | same <;> cases same <;>
    decide

theorem genuine {returned : List (Handle × Bytes)} (given : (handle, [7]) ∈ returned) :
    ∀ h, Hold (some value).toList h → h.tier.isStored = true →
      ∃ content, (h, content) ∈ returned := by
  intro h holds stored
  obtain rfl := eq_handle (by decide) holds stored
  exact ⟨[7], given⟩

theorem reached_crashed : Reachable (.sequential 1000) crashed := by
  have writing : Reachable (.sequential 1000) written :=
    Sample.reached_written (by simp [Setting.sequential])
  have attaching : Leads (.sequential 1000) written reserved :=
    leads_attach (plan_eq rfl) written_quiet rfl
  have own : reserved.own (.commit record 0) =
      [.claimed [0] ⟨record, field⟩ 1000000, .read 1000000] := rfl
  have persisting : Leads (.sequential 1000) reserved
      (reserved.persist record 0 [setting value] plan (records (some value))) := by
    refine leads_persist rfl rfl (by simp [own, Effect.Claims]) ?_
    have before : reserved.vault.repository = records none := records_none.symm
    rw [before]
    exact commits (genuine (List.mem_singleton_self _))
  exact writing.leads ((attaching.trans persisting).trans (World.leads_halt _ rfl))

theorem leads_deleted : Leads (.sequential 1000) crashed deleted := by
  have attaching : Leads (.sequential 1000) crashed replacing :=
    leads_attach removal_eq crashed_quiet rfl
  have own : replacing.own (.commit record 1) = [.read 1000000] := rfl
  have persisting : Leads (.sequential 1000) replacing
      (replacing.persist record 1 [clearing] removal (records none)) := by
    refine leads_persist rfl rfl (by simp [own]) ?_
    have before : replacing.vault.repository = records (some value) := rfl
    rw [before]
    exact commits (by simp)
  exact ((attaching.trans persisting).trans (World.leads_turn rfl (.discard rfl) 1)).trans
    (World.leads_halt _ rfl)

theorem leads_restored : Leads (.sequential 1000) deleted restored := by
  have attaching : Leads (.sequential 1000) deleted renewed :=
    leads_attach (plan_eq rfl) deleted_quiet rfl
  have own : renewed.own (.commit record 2) =
      [.renewed [0] ⟨record, field⟩ 1000000, .read 1000000] := rfl
  have persisting : Leads (.sequential 1000) renewed restored := by
    refine leads_persist rfl rfl (by simp [own, Effect.Claims]) ?_
    have before : renewed.vault.repository = records none := rfl
    rw [before]
    exact commits (genuine (List.mem_singleton_self _))
  exact attaching.trans persisting

theorem carries {w : World} (history : w.vault.repository = records (some value)) :
    w.Carries ⟨record, field⟩ handle := by
  refine ⟨[value], ?_, value, List.mem_singleton_self _, by decide⟩
  rw [history]
  rfl

end Crashed

/-- The content of a commit that crashed before it confirmed is read back. -/
theorem unconfirmed_content_survives :
    ∃ w, Reachable (.sequential 1000) w ∧
      w.Carries ⟨Sample.record, Sample.field⟩ Sample.handle ∧
      w.vault.read .medium [0] = .ok [7] ∧
      ∃ content, (Sample.handle, content) ∈ w.returned ∧
        (w.vault.read .medium [0] = .ok content ↔ ¬w.Revived Sample.handle) :=
  ⟨Crashed.crashed, Crashed.reached_crashed, Crashed.carries rfl, rfl,
    live_content_survives Crashed.reached_crashed (Crashed.carries rfl) rfl⟩

/-- A record holds a handle whose content another commit had deleted: the claim that the first
commit left behind let it reserve the handle once more. -/
theorem restored_content_missing :
    ∃ w, Reachable (.sequential 1000) w ∧
      w.Carries ⟨Sample.record, Sample.field⟩ Sample.handle ∧
      (Sample.handle, [7]) ∈ w.returned ∧
      w.vault.read .medium [0] = .error (.notFound .medium [0]) :=
  ⟨Crashed.restored,
    (Crashed.reached_crashed.leads Crashed.leads_deleted).leads Crashed.leads_restored,
    Crashed.carries rfl, List.mem_singleton_self _, rfl⟩

end BlobLifecycle
