import BlobLifecycle.Proofs.ReservationConduct
import BlobLifecycle.Proofs.WritingConduct
import Mathlib.Logic.Relation

/-! Interleaved activity on one vault. Sweeps, writers, callers and record commits run
their programs request by request in any order, stop at any point, and time goes on. -/
namespace BlobLifecycle

/-- Everyone who acts, each once. -/
inductive Actor where
  | sweep (n : Nat)
  /-- A sweep under the lock of the vault's monitor. -/
  | monitor (n : Nat)
  | writer (n : Nat)
  | caller (n : Nat)
  | commit (record : RecordId) (n : Nat)
  deriving DecidableEq, Repr

def Actor.sweeps : Actor → Bool
  | sweep _ | monitor _ => true
  | _ => false

/-- What a task does at present, with what it must remember for later. -/
inductive Stage where
  | sweeping
  | monitoring
  | opening
  | writing (session : WriteSession) (accepted chunk : Bytes)
  | finishing (accepted : Bytes)
  | reserving (references : List Reference)
  /-- Beside the references stand the handles that writers had been given before. -/
  | confirming (references : List Reference) (known : List Handle)
  | planning (record : RecordId) (changes : List FieldChange)
  | attaching (record : RecordId) (changes : List FieldChange) (plan : BlobPlan)
  | settling (record : RecordId) (changes : List FieldChange) (plan : BlobPlan)
  | discarding (record : RecordId) (handles : HandleSet)

namespace Stage

abbrev Result : Stage → Type
  | sweeping => Except BlobError SweepReport
  | monitoring => Except BlobError SweepOutcome
  | opening | writing .. => Except BlobError WriteSession
  | finishing _ => Except BlobError Handle
  | reserving _ | confirming .. | attaching .. | settling .. => Except BlobError Unit
  | planning .. => BlobPlan
  | discarding .. => Nat

def Fits : Stage → Actor → Prop
  | sweeping, .sweep _ | monitoring, .monitor _ => True
  | opening, .writer _ | writing .., .writer _ | finishing _, .writer _ => True
  | reserving _, .caller _ | confirming .., .caller _ => True
  | planning record _, .commit owner _ | attaching record .., .commit owner _
  | settling record .., .commit owner _ | discarding record _, .commit owner _ => record = owner
  | _, _ => False

end Stage

structure Task where
  stage : Stage
  rest : Program stage.Result

inductive Task.Ready : Task → WriteSession → Bytes → Prop
  | opened : Ready ⟨.opening, .done (.ok session)⟩ session []
  | written : Ready ⟨.writing before accepted chunk, .done (.ok session)⟩ session (accepted ++ chunk)
  | refused : Ready ⟨.writing session accepted chunk, .done (.error e)⟩ session accepted

structure World where
  vault : Vault
  tasks : Actor → Option Task
  /-- All effects, newest first. -/
  history : List (Actor × Effect)
  /-- The handles that writers were given, with the content they had written. -/
  returned : List (Handle × Bytes)

namespace World

def own (w : World) (a : Actor) : List Effect :=
  w.history.filterMap fun e => if e.1 = a then some e.2 else none

def assign (w : World) (a : Actor) (task : Option Task) : World :=
  { w with tasks := fun b => if b = a then task else w.tasks b }

def note (w : World) (a : Actor) (d? : Option Effect) : World :=
  { w with history := (d?.toList.map fun d => (a, d)) ++ w.history }

end World

instance (own : List Effect) : Decidable (Locked own) := inferInstanceAs (Decidable (_ ∧ _))

/-- What is assumed of the surroundings. -/
structure Setting where
  /-- The least grace interval of the sweeps, and the time in which commits persist. -/
  grace : Int
  admits : Actor → Prop
  /-- Whether records also change without a commit. -/
  edits : Prop
  /-- Whose commits do not overlap. -/
  conflicts : RecordId → RecordId → Prop
  /-- What a commit with this plan deletes. -/
  discards : BlobPlan → HandleSet → Prop
  /-- How the records change when the changes to a record are written. -/
  persists : List (Handle × Bytes) → RecordId → List FieldChange → Repository → Repository → Prop

inductive Task.Starts (s : Setting) (w : World) : Actor → Task → Prop
  | sweep (enough : s.grace ≤ settings.graceInterval) :
      Starts s w (.sweep n) ⟨.sweeping, sweep settings pages⟩
  | monitor (enough : s.grace ≤ settings.graceInterval) :
      Starts s w (.monitor n) ⟨.monitoring, runSweep settings pages⟩
  | write : Starts s w (.writer n) ⟨.opening, openWrite thresholds spec⟩
  | reserve : Starts s w (.caller n) ⟨.reserving references, reserve references⟩
  | confirm :
      Starts s w (.caller n)
        ⟨.confirming references (w.returned.map (·.1)), confirm references⟩
  | commit (alone : ∀ other m task, w.tasks (.commit other m) = some task →
        ¬s.conflicts record other) :
      Starts s w (.commit record n) ⟨.planning record changes, planMutation record changes⟩

inductive Task.Turns (s : Setting) : Task → Task → Prop
  | write (ready : task.Ready session accepted) :
      Turns s task ⟨.writing session accepted chunk, session.write chunk⟩
  | finish (ready : task.Ready session accepted) :
      Turns s task ⟨.finishing accepted, session.finish⟩
  | attach :
      Turns s ⟨.planning record changes, .done plan⟩
        ⟨.attaching record changes plan, reserve plan.toReserve⟩
  | discard (meant : s.discards plan handles) :
      Turns s ⟨.settling record changes plan, .done result⟩
        ⟨.discarding record handles, deleteNow handles⟩

inductive Step (s : Setting) : World → World → Prop
  | start (admitted : s.admits a) (idle : w.tasks a = none) (fresh : w.own a = [])
      (starts : task.Starts s w a) : Step s w (w.assign a (some task))
  /-- One request is answered. -/
  | exchange (running : w.tasks a = some ⟨stage, .call r next⟩)
      (outcome : r.Outcome w.vault reply vault) :
      Step s w (({ w with vault }.note a (r.effect? reply)).assign a (some ⟨stage, next reply⟩))
  | turn (running : w.tasks a = some task) (turns : task.Turns s task') :
      Step s w (w.assign a (some task'))
  | deliver (running : w.tasks a = some ⟨.finishing accepted, .done (.ok h)⟩) :
      Step s w ({ w with returned := (h, accepted) :: w.returned }.assign a none)
  /-- The record is written: the references were reserved, and none of the claims is older
  than the grace interval. -/
  | persist (running : w.tasks a = some ⟨.attaching record changes plan, .done (.ok ())⟩)
      (timely : ∀ d ∈ w.own a, ∀ locator holder time, d.Claims locator holder time →
        w.vault.clock ≤ time + s.grace)
      (written : s.persists w.returned record changes w.vault.repository repository) :
      Step s w (({ w with vault := { w.vault with repository } }.note a
        (some (.persisted plan.toReserve))).assign a
          (some ⟨.settling record changes plan, confirm plan.toReserve⟩))
  /-- A task ends or is cut short. The lock does not outlive it. -/
  | stop (running : w.tasks a = some task) :
      Step s w ({ w with vault := { w.vault with
        isSweeping := w.vault.isSweeping && !decide (Locked (w.own a)) } }.assign a none)
  | tick (later : w.vault.clock ≤ time) :
      Step s w { w with vault := { w.vault with clock := time } }
  | edit (allowed : s.edits) :
      Step s w { w with vault := { w.vault with repository } }

/-- No content, no entry and no blob in any record; locators are never issued twice. -/
structure World.Initial (w : World) : Prop where
  ledger : w.vault.ledger = ∅
  medium : w.vault.medium = ∅
  large : w.vault.large.objects = ∅
  clock : Word.least ≤ w.vault.clock
  unlocked : w.vault.isSweeping = false
  distinct : Function.Injective w.vault.supply
  records : ∀ record field, w.vault.repository.fieldHistory record field = .ok []
  tasks : ∀ a, w.tasks a = none
  history : w.history = []
  returned : w.returned = []

def Leads (s : Setting) : World → World → Prop := Relation.ReflTransGen (Step s)

def Reachable (s : Setting) (w : World) : Prop := ∃ w₀ : World, w₀.Initial ∧ Leads s w₀ w

theorem Reachable.leads {s : Setting} {w w' : World} (reached : Reachable s w) (leads : Leads s w w') :
    Reachable s w' := by
  obtain ⟨w₀, started, before⟩ := reached
  exact ⟨w₀, started, before.trans leads⟩

/-- What the initial worlds have and every step keeps holds in every reachable world. -/
theorem Reachable.induction {s : Setting} {P : World → Prop} (initial : ∀ w, w.Initial → P w)
    (step : ∀ w w', Reachable s w → P w → Step s w w' → P w') {w : World}
    (reached : Reachable s w) : P w := by
  obtain ⟨w₀, started, leads⟩ := reached
  induction leads with
  | refl => exact initial w₀ started
  | tail leads step' ih => exact step _ _ ⟨w₀, started, leads⟩ ih step'

namespace World

def IsQuiet (w : World) : Prop := ∀ record n, w.tasks (.commit record n) = none

def pending? (w : World) (a : Actor) : Option Request :=
  match w.tasks a with
  | some ⟨_, .call r _⟩ => some r
  | _ => none

theorem pending?_eq_some {w : World} {a : Actor} {r : Request} :
    w.pending? a = some r ↔ ∃ stage next, w.tasks a = some ⟨stage, .call r next⟩ := by
  unfold pending?
  constructor
  · intro pending
    split at pending
    · next stage r next running => cases pending; exact ⟨stage, next, running⟩
    · cases pending
  · rintro ⟨stage, next, running⟩
    rw [running]

def serve (w : World) (a : Actor) : World :=
  match w.tasks a with
  | some ⟨stage, .call r next⟩ =>
    let answer := w.vault.answer r
    ({ w with vault := answer.2 }.note a (r.effect? answer.1)).assign a (some ⟨stage, next answer.1⟩)
  | _ => w

def serveAll (w : World) (a : Actor) : Nat → World
  | 0 => w
  | n + 1 => (w.serve a).serveAll a n

theorem leads_serve (s : Setting) (w : World) (a : Actor) : Leads s w (w.serve a) := by
  unfold serve
  split
  · next stage r next running => exact .single (.exchange running .served)
  · exact .refl

theorem leads_serveAll (s : Setting) (w : World) (a : Actor) (n : Nat) :
    Leads s w (w.serveAll a n) := by
  induction n generalizing w with
  | zero => exact .refl
  | succ n ih => exact (leads_serve s w a).trans (ih (w.serve a))

/-- The actor begins or goes on with this task, for so many requests. -/
def launch (w : World) (a : Actor) (task : Task) (n : Nat) : World :=
  (w.assign a (some task)).serveAll a n

theorem leads_start {s : Setting} {w : World} {a : Actor} {task : Task} (admitted : s.admits a)
    (idle : w.tasks a = none) (fresh : w.own a = []) (starts : task.Starts s w a) (n : Nat) :
    Leads s w (w.launch a task n) :=
  (Relation.ReflTransGen.single (.start admitted idle fresh starts)).trans (leads_serveAll ..)

theorem leads_turn {s : Setting} {w : World} {a : Actor} {task task' : Task}
    (running : w.tasks a = some task) (turns : task.Turns s task') (n : Nat) :
    Leads s w (w.launch a task' n) :=
  (Relation.ReflTransGen.single (.turn running turns)).trans (leads_serveAll ..)

/-- The writer is given this handle for what it wrote, and is done. -/
def give (w : World) (a : Actor) (h : Handle) (content : Bytes) : World :=
  { w with returned := (h, content) :: w.returned }.assign a none

/-- A write of the chunk as one blob, from the open session to the handle. -/
def complete (w : World) (a : Actor) (session session' : WriteSession) (chunk : Bytes) (h : Handle)
    (n : Nat) : World :=
  ((w.launch a ⟨.writing session [] chunk, session.write chunk⟩ 1).launch a
    ⟨.finishing chunk, session'.finish⟩ n).give a h chunk

theorem leads_complete {s : Setting} {w : World} {a : Actor} {session session' : WriteSession}
    {chunk : Bytes} {h : Handle} {n : Nat}
    (opened : w.tasks a = some ⟨.opening, .done (.ok session)⟩)
    (written : (w.launch a ⟨.writing session [] chunk, session.write chunk⟩ 1).tasks a =
      some ⟨.writing session [] chunk, .done (.ok session')⟩)
    (finished : ((w.launch a ⟨.writing session [] chunk, session.write chunk⟩ 1).launch a
      ⟨.finishing chunk, session'.finish⟩ n).tasks a = some ⟨.finishing chunk, .done (.ok h)⟩) :
    Leads s w (w.complete a session session' chunk h n) :=
  ((leads_turn opened (.write .opened) 1).trans (leads_turn written (.finish .written) n)).tail
    (.deliver finished)

def attach (w : World) (record : RecordId) (n : Nat) (changes : List FieldChange) (plan : BlobPlan)
    (k : Nat) : World :=
  (w.launch (.commit record n) ⟨.planning record changes, planMutation record changes⟩ 1).launch
    (.commit record n) ⟨.attaching record changes plan, reserve plan.toReserve⟩ k

theorem leads_attach {s : Setting} {w : World} {record : RecordId} {n : Nat}
    {changes : List FieldChange} {plan : BlobPlan} (planned : BlobPlan.ofChanges record changes = plan)
    (admitted : s.admits (.commit record n)) (idle : w.tasks (.commit record n) = none)
    (fresh : w.own (.commit record n) = [])
    (alone : ∀ other m task, w.tasks (.commit other m) = some task → ¬s.conflicts record other)
    (k : Nat) : Leads s w (w.attach record n changes plan k) := by
  refine (leads_start admitted idle fresh (.commit alone) 1).trans (leads_turn ?_ .attach k)
  subst planned
  simp [launch, serveAll, serve, assign, planMutation, Program.log, Program.ask, note]

def persist (w : World) (record : RecordId) (n : Nat) (changes : List FieldChange) (plan : BlobPlan)
    (repository : Repository) : World :=
  (({ w with vault := { w.vault with repository } }.note (.commit record n)
    (some (.persisted plan.toReserve))).assign (.commit record n)
      (some ⟨.settling record changes plan, confirm plan.toReserve⟩))

def halt (w : World) (a : Actor) : World :=
  { w with vault := { w.vault with
    isSweeping := w.vault.isSweeping && !decide (Locked (w.own a)) } }.assign a none

theorem leads_halt (s : Setting) {w : World} {a : Actor} {task : Task} (running : w.tasks a = some task) :
    Leads s w (w.halt a) := .single (.stop running)

theorem tasks_launch_other {w : World} {a b : Actor} {task : Task} {n : Nat} (other : b ≠ a) :
    (w.launch a task n).tasks b = w.tasks b := by
  have served (w : World) (n : Nat) : (w.serveAll a n).tasks b = w.tasks b := by
    induction n generalizing w with
    | zero => rfl
    | succ n ih =>
      rw [serveAll, ih]
      unfold serve
      split <;> simp [assign, other, note]
  rw [launch, served]
  simp [assign, other]

/-- The one commit that ran is over. -/
theorem isQuiet_halt {w : World} {record : RecordId} {n : Nat}
    (alone : ∀ other m, Actor.commit other m ≠ .commit record n → w.tasks (.commit other m) = none) :
    (w.halt (.commit record n)).IsQuiet := by
  intro other m
  by_cases same : Actor.commit other m = .commit record n
  · simp [halt, assign, same]
  · simp [halt, assign, same, alone other m same]

theorem tasks_attach_other {w : World} {record : RecordId} {n : Nat} {changes : List FieldChange}
    {plan : BlobPlan} {k : Nat} {b : Actor} (other : b ≠ .commit record n) :
    (w.attach record n changes plan k).tasks b = w.tasks b := by
  rw [attach, tasks_launch_other other, tasks_launch_other other]

theorem tasks_persist_other {w : World} {record : RecordId} {n : Nat} {changes : List FieldChange}
    {plan : BlobPlan} {repository : Repository} {b : Actor} (other : b ≠ .commit record n) :
    (w.persist record n changes plan repository).tasks b = w.tasks b := by
  simp [persist, assign, note, other]

def wait (w : World) (time : Timestamp) : World := { w with vault := { w.vault with clock := time } }

def unused (vault : Vault) : World := ⟨vault, fun _ => none, [], []⟩

end World

/-- A vault without content whose locators differ in length. -/
def Vault.numbered (clock : Timestamp) : Vault :=
  { empty "" false clock with supply := fun n => List.replicate (n + 1) 0 }

theorem Vault.numbered_initial {clock : Timestamp} (least : Word.least ≤ clock) :
    (World.unused (numbered clock)).Initial where
  ledger := rfl
  medium := rfl
  large := rfl
  clock := least
  unlocked := rfl
  distinct := by
    intro m n same
    have lengths := congrArg List.length same
    simpa [World.unused, numbered] using lengths
  records := fun _ _ => rfl
  tasks := fun _ => rfl
  history := rfl
  returned := rfl

namespace Sample

def record : RecordId := ⟨"r"⟩
def field : FieldTypeId := ⟨"f"⟩
def handle : Handle := ⟨"", 1, "", .medium, [0]⟩
def reference : Reference := ⟨handle, record, field⟩
/-- A handle that carries its own byte. -/
def note : Handle := .inline "" "" [1]
def write : Task := ⟨.opening, openWrite ⟨0, 200⟩ ⟨"", "", 1⟩⟩
def session (content : Bytes) : WriteSession :=
  ⟨⟨"", "", 1⟩, .medium, ⟨.medium, [0], "", 1000000, content, false⟩, content.length⟩

def opened : World := (World.unused (Vault.numbered 1000000)).launch (.writer 0) write 4

def written : World := opened.complete (.writer 0) (session []) (session [7]) [7] handle 2

def abandon (w : World) : World := (w.launch (.writer 1) write 4).wait 2000000

theorem reached_opened {s : Setting} (admitted : s.admits (.writer 0)) : Reachable s opened :=
  ⟨_, Vault.numbered_initial (by decide), World.leads_start admitted rfl rfl .write 4⟩

theorem reached_written {s : Setting} (admitted : s.admits (.writer 0)) : Reachable s written :=
  (reached_opened admitted).leads (World.leads_complete rfl rfl rfl)

theorem leads_abandon {s : Setting} {w : World} (admitted : s.admits (.writer 1))
    (idle : w.tasks (.writer 1) = none) (fresh : w.own (.writer 1) = [])
    (early : (w.launch (.writer 1) write 4).vault.clock ≤ 2000000) : Leads s w (abandon w) :=
  (World.leads_start admitted idle fresh .write 4).tail (.tick early)

def change (before after : Option FieldValue) : FieldChange :=
  ⟨field, .nonVersioned, before, after, .newVersion, []⟩

theorem eq_handle {value : FieldValue} (elements : ∀ h ∈ value.elements, h = note ∨ h = handle)
    {h : Handle} (holds : Hold (some value).toList h) (stored : h.tier.isStored = true) :
    h = handle := by
  obtain ⟨_, ⟨⟩, listed⟩ := hold_toList.1 holds
  rcases elements h listed with rfl | same
  · cases stored
  · exact same

def setting (value : FieldValue) : FieldChange := change none (some value)
def plan : BlobPlan := ⟨[reference], []⟩

theorem plan_eq {value : FieldValue} (handles : value.handles = [note, handle]) :
    BlobPlan.ofChanges record [setting value] = plan := by
  have introduced : (setting value).introduced = [handle] := by
    simp only [FieldChange.introduced, HandleSet.ofValue, setting, change, Option.map_some,
      Option.getD_some, handles]
    rfl
  have freed : (setting value).freed = [] := rfl
  simp [BlobPlan.ofChanges, FieldChange.references, introduced, freed, sortByLocator,
    HandleSet.union]
  rfl

def records (value : Option FieldValue) : Repository :=
  { Repository.empty with
    fieldHistory := fun r f => .ok (if r = record ∧ f = field then value.toList else []) }

theorem records_none : records none = Repository.empty := by
  simp [records, Repository.empty]

end Sample

end BlobLifecycle
