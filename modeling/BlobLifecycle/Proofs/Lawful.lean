import BlobLifecycle.Proofs.Traversal
import BlobLifecycle.Proofs.World

/-! In every reachable world every task keeps the rule of its stage, so each step is one of
few kinds: an allowed effect, the writing of a record, an edit, or nothing of note. -/
namespace BlobLifecycle

namespace Stage

def rule (grace : Int) : Stage → Rule
  | sweeping => sweepRule grace
  | monitoring => monitorRule grace
  | opening => openRule
  | writing .. | planning .. => silentRule
  | finishing _ => publishRule
  | reserving references => reserveRule references
  | attaching _ _ plan => reserveRule plan.toReserve
  | confirming .. | settling .. => confirmRule
  | discarding _ handles => discardRule handles

def promise : (stage : Stage) → List Effect → stage.Result → Prop
  | sweeping | monitoring | settling .. | discarding .. => anything
  | opening => fun own result => ∀ session, result = .ok session → Holding own session []
  | writing _ accepted chunk => fun own result =>
    ∀ session, result = .ok session → Holding own session (accepted ++ chunk)
  | finishing accepted => fun own result =>
    ∀ h, result = .ok h → h.tier.isStored = true → Delivered own h accepted
  | reserving references => fun own result => result = .ok () → Granted references own
  | attaching _ _ plan => fun own result => result = .ok () → Granted plan.toReserve own
  | confirming references _ => fun own result => result = .ok () → Settled references own
  | planning record changes => fun _ plan => plan = .ofChanges record changes

def Holds : Stage → List Effect → Prop
  | writing session accepted _, own => Holding own session accepted
  | planning .., own => own = []
  | attaching record changes plan, own =>
    plan = .ofChanges record changes ∧ ∀ references, .persisted references ∉ own
  | settling record changes plan, _ => plan = .ofChanges record changes
  | _, _ => True

theorem Holds.cons {grace : Int} {stage : Stage} {own : List Effect} {d : Effect}
    (holds : stage.Holds own) (allowed : stage.rule grace own d) : stage.Holds (d :: own) := by
  cases stage with
  | writing => exact allowed.elim
  | planning => exact allowed.elim
  | attaching record changes plan =>
    refine ⟨holds.1, fun references member => ?_⟩
    rcases List.mem_cons.1 member with rfl | member
    · exact allowed
    · exact holds.2 references member
  | settling => exact holds
  | _ => trivial

end Stage

structure Task.Lawful (s : Setting) (a : Actor) (own : List Effect) (task : Task) : Prop where
  admitted : s.admits a
  fits : task.stage.Fits a
  holds : task.stage.Holds own
  obeys : task.rest.Obeys (task.stage.rule s.grace) task.stage.promise own

def World.Lawful (s : Setting) (w : World) : Prop :=
  ∀ a task, w.tasks a = some task → task.Lawful s a (w.own a)

namespace World

variable {w : World} {a b : Actor}

@[simp] theorem mem_own {d : Effect} : d ∈ w.own a ↔ (a, d) ∈ w.history := by
  simp [own, eq_comm]

@[simp] theorem own_assign (task : Option Task) : (w.assign a task).own b = w.own b := rfl

theorem own_note_self (d? : Option Effect) : (w.note a d?).own a = d?.toList ++ w.own a := by
  cases d? <;> simp [own, note]

theorem own_note_other (d? : Option Effect) (other : b ≠ a) : (w.note a d?).own b = w.own b := by
  cases d? <;> simp [own, note, other.symm]

theorem tasks_assign_self (task : Option Task) : (w.assign a task).tasks a = task := if_pos rfl

theorem tasks_assign_other (task : Option Task) (other : b ≠ a) :
    (w.assign a task).tasks b = w.tasks b := if_neg other

theorem tasks_assign_some {task : Option Task} {task' : Task}
    (running : (w.assign a task).tasks b = some task') :
    (b = a ∧ task = some task') ∨ w.tasks b = some task' := by
  by_cases same : b = a
  · subst same
    rw [tasks_assign_self] at running
    exact .inl ⟨rfl, running⟩
  · rw [tasks_assign_other _ same] at running
    exact .inr running

end World

theorem Task.Starts.lawful {s : Setting} {w : World} {a : Actor} {task : Task}
    (starts : task.Starts s w a) (admitted : s.admits a) : task.Lawful s a [] := by
  cases starts with
  | sweep enough =>
    exact ⟨admitted, trivial, trivial, sweep_obeys enough _ (by simp [First])⟩
  | monitor enough => exact ⟨admitted, trivial, trivial, runSweep_obeys enough _⟩
  | write => exact ⟨admitted, trivial, trivial, openWrite_obeys _ _⟩
  | reserve => exact ⟨admitted, trivial, trivial, reserve_obeys _⟩
  | confirm => exact ⟨admitted, trivial, trivial, confirm_obeys _⟩
  | commit alone =>
    exact ⟨admitted, rfl, rfl, (planMutation_obeys _ _).promising fun _ _ h => h.2⟩

theorem Task.Ready.holding {s : Setting} {a : Actor} {own : List Effect} {task : Task}
    {session : WriteSession} {accepted : Bytes} (ready : task.Ready session accepted)
    (lawful : task.Lawful s a own) : Holding own session accepted ∧ ∃ n, a = .writer n := by
  obtain ⟨_, fits, holds, obeys⟩ := lawful
  cases ready with
  | opened =>
    refine ⟨obeys session rfl, ?_⟩
    cases a <;> first | exact fits.elim | exact ⟨_, rfl⟩
  | written =>
    refine ⟨obeys session rfl, ?_⟩
    cases a <;> first | exact fits.elim | exact ⟨_, rfl⟩
  | refused =>
    refine ⟨holds, ?_⟩
    cases a <;> first | exact fits.elim | exact ⟨_, rfl⟩

theorem Task.Turns.lawful {s : Setting} {a : Actor} {own : List Effect} {task task' : Task}
    (turns : task.Turns s task') (lawful : task.Lawful s a own) : task'.Lawful s a own := by
  cases turns with
  | write ready =>
    obtain ⟨holding, n, rfl⟩ := ready.holding lawful
    exact ⟨lawful.admitted, trivial, holding,
      (WriteSession.write_obeys holding _).promising fun _ _ h => h.2⟩
  | finish ready =>
    obtain ⟨holding, n, rfl⟩ := ready.holding lawful
    exact ⟨lawful.admitted, trivial, trivial, WriteSession.finish_obeys holding⟩
  | attach =>
    obtain ⟨admitted, fits, holds, obeys⟩ := lawful
    have fresh : own = [] := holds
    subst fresh
    refine ⟨admitted, ?_, ⟨obeys, fun _ => List.not_mem_nil⟩, reserve_obeys _⟩
    cases a <;> exact fits
  | discard meant =>
    obtain ⟨admitted, fits, _, _⟩ := lawful
    refine ⟨admitted, ?_, trivial, deleteNow_obeys _⟩
    cases a <;> exact fits

/-- Keeping to the rule through one exchange. -/
theorem Task.Lawful.exchange {s : Setting} {a : Actor} {own : List Effect} {stage : Stage}
    {r : Request} {next : r.Reply → Program stage.Result} {reply : r.Reply}
    (lawful : Task.Lawful s a own ⟨stage, .call r next⟩) (credible : r.Credible reply) :
    Task.Lawful s a (r.recall reply own) ⟨stage, next reply⟩ := by
  obtain ⟨admitted, fits, holds, obeys⟩ := lawful
  obtain ⟨allowed, continues⟩ := obeys reply credible
  refine ⟨admitted, fits, ?_, continues⟩
  unfold Request.recall
  cases effect : r.effect? reply with
  | none => exact holds
  | some d => exact Stage.Holds.cons holds (allowed d effect)

/-- The task of one actor changes, the effects of the others do not. -/
theorem World.Lawful.assign {s : Setting} {w w' : World} {a : Actor} {task : Option Task}
    (lawful : w.Lawful s) (others : ∀ b, b ≠ a → w'.own b = w.own b)
    (tasks : ∀ b, b ≠ a → w'.tasks b = w.tasks b)
    (here : ∀ t, task = some t → t.Lawful s a (w'.own a)) : (w'.assign a task).Lawful s := by
  intro b t running
  by_cases same : b = a
  · subst same
    rw [World.tasks_assign_self] at running
    exact here t running
  · rw [World.tasks_assign_other _ same, tasks b same] at running
    rw [World.own_assign, others b same]
    exact lawful b t running

theorem Step.lawful {s : Setting} {w w' : World} (lawful : w.Lawful s) (step : Step s w w') :
    w'.Lawful s := by
  cases step with
  | start admitted idle fresh starts =>
    refine lawful.assign (fun _ _ => rfl) (fun _ _ => rfl) ?_
    rintro _ ⟨⟩
    rw [fresh]
    exact starts.lawful admitted
  | exchange running outcome =>
    refine lawful.assign (fun _ other => World.own_note_other _ other) (fun _ _ => rfl) ?_
    rintro _ ⟨⟩
    rw [World.own_note_self]
    exact (lawful _ _ running).exchange outcome.credible
  | turn running turns =>
    refine lawful.assign (fun _ _ => rfl) (fun _ _ => rfl) ?_
    rintro _ ⟨⟩
    exact turns.lawful (lawful _ _ running)
  | deliver running => exact lawful.assign (fun _ _ => rfl) (fun _ _ => rfl) (by simp)
  | persist running timely written =>
    refine lawful.assign (fun _ other => World.own_note_other _ other) (fun _ _ => rfl) ?_
    rintro _ ⟨⟩
    obtain ⟨admitted, fits, holds, obeys⟩ := lawful _ _ running
    refine ⟨admitted, ?_, holds.1, (confirm_obeys _).promising fun _ _ _ => trivial⟩
    revert fits
    cases ‹Actor› <;> exact id
  | stop running => exact lawful.assign (fun _ _ => rfl) (fun _ _ => rfl) (by simp)
  | tick later => exact lawful
  | edit allowed => exact lawful

theorem Reachable.lawful {s : Setting} {w : World} (reached : Reachable s w) : w.Lawful s := by
  refine Reachable.induction ?_ (fun w w' _ lawful step => step.lawful lawful) reached
  intro w started a task running
  rw [started.tasks] at running
  cases running

namespace World

def Running (w : World) (a : Actor) : Prop := ∃ task, w.tasks a = some task

theorem Initial.idle {w : World} (started : w.Initial) (a : Actor) : ¬w.Running a := by
  rintro ⟨task, running⟩
  rw [started.tasks] at running
  cases running

theorem Initial.row {w : World} (started : w.Initial) (locator : Locator) :
    w.vault.row locator = none := by
  rw [Vault.row, started.ledger]
  rfl

structure Still (s : Setting) (w w' : World) : Prop where
  ledger : w'.vault.ledger = w.vault.ledger
  supply : w'.vault.supply = w.vault.supply
  issued : w'.vault.issued = w.vault.issued
  repository : ¬s.edits → w'.vault.repository = w.vault.repository
  clock : w.vault.clock ≤ w'.vault.clock
  history : w'.history = w.history
  lock : w'.vault.isSweeping = w.vault.isSweeping ∨
    ∃ a, w.Running a ∧ Locked (w.own a) ∧ ¬w'.Running a
  tasks : (∀ b, w'.Running b → w.Running b) ∨ ∃ a, ∃ task : Task, task.Starts s w a ∧ w.own a = [] ∧
    ∀ b, w'.Running b → b = a ∨ w.Running b

/-- Whoever runs ran before, or has done nothing yet. -/
theorem Still.running {s : Setting} {w w' : World} {a : Actor} (still : w.Still s w')
    (running : w'.Running a) : w.Running a ∨ w.own a = [] := by
  rcases still.tasks with same | ⟨b, task, starts, fresh, others⟩
  · exact .inl (same a running)
  · rcases others a running with rfl | before
    · exact .inr fresh
    · exact .inl before

/-- One actor had one effect that the rule of its stage allows. -/
structure Acts (s : Setting) (a : Actor) (d : Effect) (w w' : World) : Prop where
  happens : d.Happens w.vault w'.vault
  history : w'.history = (a, d) :: w.history
  allowed : ∃ task, w.tasks a = some task ∧ task.Lawful s a (w.own a) ∧
    task.stage.rule s.grace (w.own a) d
  running : ∀ b, w'.Running b → w.Running b

structure Persists (s : Setting) (a : Actor) (record : RecordId) (changes : List FieldChange)
    (w w' : World) : Prop where
  actor : ∃ n, a = .commit record n
  committing : w.Running a
  granted : Granted (BlobPlan.ofChanges record changes).toReserve (w.own a)
  once : ∀ references, .persisted references ∉ w.own a
  timely : ∀ d ∈ w.own a, ∀ locator holder time, d.Claims locator holder time →
    w.vault.clock ≤ time + s.grace
  written : s.persists w.returned record changes w.vault.repository w'.vault.repository
  ledger : w'.vault.ledger = w.vault.ledger
  supply : w'.vault.supply = w.vault.supply
  issued : w'.vault.issued = w.vault.issued
  clock : w'.vault.clock = w.vault.clock
  lock : w'.vault.isSweeping = w.vault.isSweeping
  history : w'.history =
    (a, .persisted (BlobPlan.ofChanges record changes).toReserve) :: w.history
  running : ∀ b, w'.Running b → w.Running b

/-- Of all effects only the writing itself is new. -/
theorem Persists.members {s : Setting} {a : Actor} {record : RecordId} {changes : List FieldChange}
    {w w' : World} (persists : w.Persists s a record changes w') (b : Actor) (d : Effect)
    (other : ∀ references, d ≠ .persisted references) :
    (b, d) ∈ w'.history ↔ (b, d) ∈ w.history := by
  rw [persists.history, List.mem_cons]
  constructor
  · rintro (same | member)
    · cases same
      exact (other _ rfl).elim
    · exact member
  · exact .inr

/-- No row changed, and of all effects only the writing of a record may be new. -/
structure Unmoved (w w' : World) : Prop where
  ledger : w'.vault.ledger = w.vault.ledger
  members : ∀ b d, (∀ references, d ≠ .persisted references) →
    ((b, d) ∈ w'.history ↔ (b, d) ∈ w.history)

theorem Unmoved.row {w w' : World} (unmoved : w.Unmoved w') (locator : Locator) :
    w'.vault.row locator = w.vault.row locator := by
  rw [Vault.row, unmoved.ledger, Vault.row]

theorem Still.unmoved {s : Setting} {w w' : World} (still : w.Still s w') : w.Unmoved w' :=
  ⟨still.ledger, fun _ _ _ => by rw [still.history]⟩

theorem Persists.unmoved {s : Setting} {a : Actor} {record : RecordId} {changes : List FieldChange}
    {w w' : World} (persists : w.Persists s a record changes w') : w.Unmoved w' :=
  ⟨persists.ledger, persists.members⟩

theorem own_cons_self {w w' : World} {a : Actor} {d : Effect} (history : w'.history = (a, d) :: w.history) :
    w'.own a = d :: w.own a := by
  simp [own, history]

theorem own_cons_other {w w' : World} {a b : Actor} {d : Effect}
    (history : w'.history = (a, d) :: w.history) (other : b ≠ a) : w'.own b = w.own b := by
  simp [own, history, other.symm]

theorem running_assign {w : World} {a b : Actor} {task : Option Task}
    (running : (w.assign a task).Running b) (before : w.Running a) : w.Running b := by
  obtain ⟨task', running⟩ := running
  rcases tasks_assign_some running with ⟨rfl, _⟩ | running
  · exact before
  · exact ⟨task', running⟩

end World

/-- The writing of a record follows its plan and a reservation that succeeded. -/
theorem World.Lawful.persists {s : Setting} {w : World} {a : Actor} {record : RecordId}
    {changes : List FieldChange} {plan : BlobPlan} {repository : Repository} (lawful : w.Lawful s)
    (running : w.tasks a = some ⟨.attaching record changes plan, .done (.ok ())⟩)
    (timely : ∀ d ∈ w.own a, ∀ locator holder time, d.Claims locator holder time →
      w.vault.clock ≤ time + s.grace)
    (written : s.persists w.returned record changes w.vault.repository repository) :
    plan = .ofChanges record changes ∧ w.Persists s a record changes
      (({ w with vault := { w.vault with repository } }.note a
        (some (.persisted plan.toReserve))).assign a
          (some ⟨.settling record changes plan, confirm plan.toReserve⟩)) := by
  obtain ⟨admitted, fits, ⟨planned, once⟩, granted⟩ := lawful a _ running
  obtain rfl : plan = .ofChanges record changes := planned
  refine ⟨rfl, ?_, ⟨_, running⟩, granted rfl, once, timely, written, rfl, rfl, rfl, rfl, rfl, rfl, ?_⟩
  · cases a <;> first | exact fits.elim | exact ⟨_, by rw [show record = _ from fits]⟩
  · exact fun b running' => World.running_assign running' ⟨_, running⟩

/-- What a step can be, as far as the ledger, the records and the clock are concerned. -/
theorem Step.kinds {s : Setting} {w w' : World} (lawful : w.Lawful s) (step : Step s w w') :
    w.Still s w' ∨ (∃ a d, w.Acts s a d w') ∨ ∃ a record changes, w.Persists s a record changes w' := by
  cases step with
  | @start a w task admitted idle fresh starts =>
    refine .inl ⟨rfl, rfl, rfl, fun _ => rfl, Int.le_refl _, rfl, .inl rfl, .inr ⟨a, task, starts, fresh, ?_⟩⟩
    rintro b ⟨task', running⟩
    exact (World.tasks_assign_some running).imp (·.1) fun before => ⟨task', before⟩
  | @exchange w a stage r next reply vault running outcome =>
    have leaves := outcome.leaves
    cases effect : r.effect? reply with
    | none =>
      rw [effect] at leaves
      obtain ⟨⟨clock, supply, repository⟩, ledger, issued, lock⟩ := leaves
      refine .inl ⟨ledger, supply, issued, fun _ => repository, Int.le_of_eq clock.symm, rfl,
        .inl lock, .inl ?_⟩
      exact fun b running' => World.running_assign running' ⟨_, running⟩
    | some d =>
      rw [effect] at leaves
      refine .inr (.inl ⟨a, d, leaves, rfl, ⟨_, running, lawful a _ running, ?_⟩, ?_⟩)
      · exact ((lawful a _ running).obeys reply outcome.credible).1 d effect
      · exact fun b running' => World.running_assign running' ⟨_, running⟩
  | turn running turns =>
    refine .inl ⟨rfl, rfl, rfl, fun _ => rfl, Int.le_refl _, rfl, .inl rfl, .inl fun b running' => ?_⟩
    exact World.running_assign running' ⟨_, running⟩
  | deliver running =>
    refine .inl ⟨rfl, rfl, rfl, fun _ => rfl, Int.le_refl _, rfl, .inl rfl, .inl fun b running' => ?_⟩
    exact World.running_assign running' ⟨_, running⟩
  | persist running timely written =>
    exact .inr (.inr ⟨_, _, _, (lawful.persists running timely written).2⟩)
  | @stop task w a running =>
    refine .inl ⟨rfl, rfl, rfl, fun _ => rfl, Int.le_refl _, rfl, ?_, .inl fun b running' => ?_⟩
    · by_cases locked : Locked (w.own a)
      · refine .inr ⟨a, ⟨_, running⟩, locked, ?_⟩
        rintro ⟨task', running'⟩
        rw [World.tasks_assign_self] at running'
        cases running'
      · exact .inl (by simp [World.assign, locked])
    · exact World.running_assign running' ⟨_, running⟩
  | tick later => exact .inl ⟨rfl, rfl, rfl, fun _ => rfl, later, rfl, .inl rfl, .inl fun _ => id⟩
  | edit allowed =>
    exact .inl ⟨rfl, rfl, rfl, fun kept => absurd allowed kept, Int.le_refl _, rfl, .inl rfl,
      .inl fun _ => id⟩

/-- Any effect but the writing of a record came as the rule of a stage allows. -/
theorem Step.acts {s : Setting} {w w' : World} {a : Actor} {d : Effect} (lawful : w.Lawful s)
    (step : Step s w w') (history : w'.history = (a, d) :: w.history)
    (other : ∀ references, d ≠ .persisted references) : w.Acts s a d w' := by
  rcases step.kinds lawful with still | ⟨b, d', acts⟩ | ⟨b, record, changes, persists⟩
  · exact (List.cons_ne_self (a, d) w.history (history.symm.trans still.history)).elim
  · obtain ⟨same, _⟩ := List.cons.inj (history.symm.trans acts.history)
    cases same
    exact acts
  · obtain ⟨same, _⟩ := List.cons.inj (history.symm.trans persists.history)
    cases same
    exact (other _ rfl).elim

/-- The actor reserves for the holder: for a caller, or before the record was written. -/
def World.ReservesFor (w : World) (a : Actor) (holder : RecordField) : Prop :=
  (∃ n, a = .caller n) ∨
    (∃ n, a = .commit holder.record n) ∧ ∀ references, .persisted references ∉ w.own a

namespace World.Acts

variable {s : Setting} {w w' : World} {a : Actor} {locator : Locator} {holder : RecordField}

theorem row {d : Effect} (acts : w.Acts s a d w') (locator : Locator) :
    RowStep locator d (w.vault.row locator) (w'.vault.row locator) := acts.happens.ledger locator

theorem members {d d' : Effect} {b : Actor} (acts : w.Acts s a d w') :
    (b, d') ∈ w'.history ↔ (b = a ∧ d' = d) ∨ (b, d') ∈ w.history := by
  rw [acts.history, List.mem_cons, Prod.mk.injEq]

theorem grows {d : Effect} (acts : w.Acts s a d w') : w.history ⊆ w'.history := by
  rw [acts.history]
  exact List.subset_cons_self _ _

theorem performer {d : Effect} (acts : w.Acts s a d w') : w.Running a := by
  obtain ⟨task, running, _⟩ := acts.allowed
  exact ⟨task, running⟩

theorem reading {time : Timestamp} (acts : w.Acts s a (.read time) w') : First (w.own a) := by
  obtain ⟨task, running, lawful, allowed⟩ := acts.allowed
  generalize task.stage = stage at allowed
  cases stage with
  | monitoring => exact allowed.2
  | sweeping | opening | reserving | attaching => exact allowed
  | _ => exact allowed.elim

/-- Only reservations claim or take back claims, each for the holders of its references. -/
theorem reserving {d : Effect} (acts : w.Acts s a d w')
    (reserves : (∃ time, d.Claims locator holder time) ∨ d = .unclaimed locator holder) :
    ∃ references, reserveRule references (w.own a) d ∧
      ∀ r ∈ storedReferences references, w.ReservesFor a r.holder := by
  obtain ⟨⟨stage, rest⟩, running, ⟨_, fits, holds, _⟩, allowed⟩ := acts.allowed
  cases stage with
  | reserving references =>
    refine ⟨references, allowed, fun r member => .inl ?_⟩
    cases a <;> first | exact fits.elim | exact ⟨_, rfl⟩
  | attaching record changes plan =>
    obtain ⟨planned, unpersisted⟩ := holds
    refine ⟨plan.toReserve, allowed, fun r member => .inr ⟨?_, unpersisted⟩⟩
    have listed : r ∈ plan.toReserve := (List.mem_filter.1 member).1
    rw [planned] at listed
    obtain ⟨c, _, _, same⟩ := BlobPlan.mem_toReserve.1 listed
    rw [same]
    cases a <;> first | exact fits.elim | exact ⟨_, by rw [show record = _ from fits]⟩
  | monitoring => rcases reserves with ⟨_, rfl | rfl⟩ | rfl <;> exact allowed.2.elim
  | _ => rcases reserves with ⟨_, rfl | rfl⟩ | rfl <;> exact allowed.elim

theorem claiming {d : Effect} {time : Timestamp} (acts : w.Acts s a d w')
    (claims : d.Claims locator holder time) :
    .read time ∈ w.own a ∧ Steady (w.own a) ∧ w.ReservesFor a holder := by
  obtain ⟨references, allowed, reserves⟩ := acts.reserving (.inl ⟨time, claims⟩)
  have rule : .read time ∈ w.own a ∧ Steady (w.own a) ∧
      ∃ r ∈ storedReferences references, r.Aims locator holder := by
    rcases claims with rfl | rfl <;> exact allowed
  obtain ⟨read, steady, r, member, _, rfl⟩ := rule
  exact ⟨read, steady, reserves r member⟩

theorem unclaiming (acts : w.Acts s a (.unclaimed locator holder) w') :
    undone (w.own a) locator holder < made (w.own a) locator holder ∧ w.ReservesFor a holder := by
  obtain ⟨references, ⟨fewer, r, member, _, rfl⟩, reserves⟩ := acts.reserving (.inr rfl)
  exact ⟨fewer, reserves r member⟩

theorem condemning {e : Entry} {time : Timestamp} (acts : w.Acts s a (.condemned e time) w') :
    Overdue s.grace (w.own a) e := by
  obtain ⟨task, running, lawful, allowed⟩ := acts.allowed
  generalize task.stage = stage at allowed
  cases stage with
  | monitoring => exact allowed.2
  | sweeping => exact allowed
  | _ => exact allowed.elim

theorem locking (acts : w.Acts s a .locked w') : w.own a = [] := by
  obtain ⟨⟨stage, rest⟩, running, _, allowed⟩ := acts.allowed
  cases stage with
  | monitoring => exact allowed
  | _ => exact allowed.elim

theorem unlocking (acts : w.Acts s a .unlocked w') : Locked (w.own a) := by
  obtain ⟨⟨stage, rest⟩, running, _, allowed⟩ := acts.allowed
  cases stage with
  | monitoring => exact allowed
  | _ => exact allowed.elim

/-- Rows are removed by sweeps, and by monitors under the lock. -/
theorem clearing (acts : w.Acts s a (.removed locator) w') :
    (∃ n, a = .sweep n) ∨ Locked (w.own a) := by
  obtain ⟨⟨stage, rest⟩, running, ⟨_, fits, _, _⟩, allowed⟩ := acts.allowed
  cases stage with
  | sweeping => cases a <;> first | exact fits.elim | exact .inl ⟨_, rfl⟩
  | monitoring => exact .inr allowed.1
  | _ => exact allowed.elim

theorem removing (acts : w.Acts s a (.removed locator) w') :
    ∃ e, e.locator = locator ∧ Doomed (w.own a) e := by
  obtain ⟨task, running, lawful, allowed⟩ := acts.allowed
  generalize task.stage = stage at allowed
  cases stage with
  | monitoring => exact allowed.2
  | sweeping => exact allowed
  | _ => exact allowed.elim

end World.Acts

/-- Content is deleted by sweeps only after its entry was doomed. -/
theorem World.Lawful.deletes {s : Setting} {w : World} {a : Actor} {tier : Tier} {locator : Locator}
    (lawful : w.Lawful s) (sweeps : a.sweeps = true)
    (deleting : w.pending? a = some (.delete tier locator)) :
    ∃ e, e.tier = tier ∧ e.locator = locator ∧ Doomed (w.own a) e := by
  obtain ⟨stage, next, running⟩ := World.pending?_eq_some.1 deleting
  obtain ⟨_, fits, _, obeys⟩ := lawful a _ running
  have allowed := (obeys (.ok ()) trivial).1 (.deleted tier locator) rfl
  cases stage with
  | sweeping => exact allowed
  | monitoring => exact allowed.2
  | _ => cases a <;> first | exact fits.elim | cases sweeps

theorem World.Lawful.deletes_locked {s : Setting} {w : World} {a : Actor} {tier : Tier}
    {locator : Locator} (monitored : ∀ n, ¬s.admits (.sweep n)) (lawful : w.Lawful s)
    (sweeps : a.sweeps = true) (deleting : w.pending? a = some (.delete tier locator)) :
    Locked (w.own a) := by
  obtain ⟨stage, next, running⟩ := World.pending?_eq_some.1 deleting
  obtain ⟨admitted, fits, _, obeys⟩ := lawful a _ running
  have allowed := (obeys (.ok ()) trivial).1 (.deleted tier locator) rfl
  cases stage with
  | sweeping => cases a <;> first | exact fits.elim | exact (monitored _ admitted).elim
  | monitoring => exact allowed.1
  | _ => cases a <;> first | exact fits.elim | cases sweeps

end BlobLifecycle
