import BlobLifecycle.Sweep
import BlobLifecycle.Routine

/-! Periodic sweeps beside a routine. A loop sweeps when it first runs and then once per period
until it is told to stop. Whoever is ready runs in the order of waking; the timers go on only
when nobody is. -/
namespace BlobLifecycle

structure SweepLoop where
  number : Nat
  /-- Loops of one scheduler are stopped together. -/
  scheduler : Nat
  period : Nat
  /-- Not known before the loop first runs. -/
  nextTick : Option Nat
  isSignalled : Bool
  /-- Whether a sweep of the loop has not ended. -/
  isSweeping : Bool
  deriving DecidableEq, Repr

namespace SweepLoop

/-- Lateness up to which a tick does not put off those after it. -/
def tolerance : Nat := 5

/-- The tick after one that was due at a time and is made now. -/
def tickAfter (l : SweepLoop) (due now : Nat) : Nat :=
  (if due + tolerance < now then now else due) + l.period

/-- One sweep. A failed one is logged and does not end the loop. -/
def sweep (settings : SweepSettings) (pages : Nat) : Program Unit := do
  if let .error e ← (runSweep settings pages).run then .log (.sweepFailed e)

end SweepLoop

inductive Process where
  | main
  | loop (number : Nat)
  deriving DecidableEq, Repr

def Process.loop? : Process → Option Nat
  | main => none
  | loop number => some number

/-- What has to come about before a process goes on. -/
inductive Condition where
  | time (deadline : Nat)
  | files
  | loop (number deadline : Nat)
  deriving DecidableEq, Repr

namespace Condition

def deadline? : Condition → Option Nat
  | time deadline | loop _ deadline => some deadline
  | files => none

def isDue (c : Condition) (now : Nat) : Bool := c.deadline?.any (· ≤ now)

def isEnd (c : Condition) (number : Nat) : Bool :=
  match c with
  | loop n _ => n = number
  | _ => false

end Condition

structure Schedule where
  time : Nat
  /-- The loops that have not stopped, oldest first. -/
  loops : List SweepLoop
  /-- Number and period of the current scheduler. -/
  current : Option (Nat × Nat)
  /-- Schedulers and loops made so far. -/
  schedulers : Nat
  spawned : Nat
  /-- The loops that nobody has seen stop, oldest first. -/
  unseen : List Nat
  /-- The loops whose turn it is, in order. -/
  ready : List Nat
  /-- Who waits, in the order in which they began to. -/
  waiting : List (Process × Condition)
  deriving DecidableEq, Repr

namespace Schedule

def idle : Schedule := ⟨0, [], none, 0, 0, [], [], []⟩

def loop? (s : Schedule) (number : Nat) : Option SweepLoop :=
  s.loops.find? (·.number = number)

def setLoop (s : Schedule) (l : SweepLoop) : Schedule :=
  { s with loops := s.loops.map fun old => if old.number = l.number then l else old }

def isWaiting (s : Schedule) (p : Process) : Bool := s.waiting.any (·.1 = p)

def wake (s : Schedule) (isWoken : Process × Condition → Bool) : Schedule :=
  { s with
    ready := s.ready ++ (s.waiting.filter isWoken).filterMap (·.1.loop?)
    waiting := s.waiting.filter fun entry => !isWoken entry }

def await (s : Schedule) (p : Process) (c : Condition) : Schedule :=
  { s with waiting := s.waiting ++ [(p, c)] }

/-- What a routine that begins to wait now waits for; nothing if there is no need to. -/
def condition? (s : Schedule) : Wait → Option Condition
  | .time 0 => none
  | .time interval => some (.time (s.time + interval))
  | .files => some .files
  | .loop number interval => (s.loop? number).map fun _ => .loop number (s.time + interval)

def start (s : Schedule) (period : Nat) : Schedule :=
  let (scheduler, period) := s.current.getD (s.schedulers, max period 1)
  { s with
    loops := s.loops ++ [⟨s.spawned, scheduler, period, none, false, false⟩]
    current := some (scheduler, period)
    schedulers := if s.current.isSome then s.schedulers else s.schedulers + 1
    spawned := s.spawned + 1
    unseen := s.unseen ++ [s.spawned]
    ready := s.ready ++ [s.spawned] }

/-- Signals to the loops of the current scheduler, and wakes those that wait for their
next tick. A sweep that has begun is not disturbed. -/
def stop (s : Schedule) : Schedule :=
  let isMeant (l : SweepLoop) : Bool := s.current.any (·.1 = l.scheduler)
  let idle := (s.loops.filter fun l => isMeant l && !l.isSweeping).map (·.number)
  { s with loops := s.loops.map fun l => if isMeant l then { l with isSignalled := true } else l }
    |>.wake fun (p, _) => p.loop?.any idle.contains

def obey (s : Schedule) : (o : Order) → o.Reply × Schedule
  | .start period => ((), s.start period)
  | .stop => ((), s.stop)
  | .drop => ((), { s.stop with current := none })
  | .oldest => (s.unseen.head?, s)
  | .sees number =>
    if (s.loop? number).isSome then (false, s)
    else (true, { s with unseen := s.unseen.filter (· ≠ number) })

def finish (s : Schedule) (number : Nat) : Schedule :=
  { s with loops := s.loops.filter (·.number ≠ number) }.wake fun (_, c) => c.isEnd number

/-- Lets come about what comes next: the file system answers who asked it first, or else
the timers go on to the next deadline. -/
def next? (s : Schedule) : Option Schedule :=
  match s.waiting.find? (·.2 = .files) with
  | some entry => some (s.wake (· = entry))
  | none =>
    (s.waiting.filterMap (·.2.deadline?)).min?.map fun time =>
      { s with time }.wake fun (_, c) => c.isDue time

end Schedule

inductive Progress (σ α : Type) where
  | finished (value : α)
  | waits (rest : Routine σ α)

def Routine.advance (p : Process) : Routine σ α → σ → Schedule → Progress σ α × σ × Schedule
  | done a, state, s => (.finished a, state, s)
  | read next, state, s => (next state).advance p state s
  | write state next, _, s => next.advance p state s
  | order o next, state, s =>
    let (reply, s) := s.obey o
    (next reply).advance p state s
  | wait w next, state, s =>
    match s.condition? w with
    | none => next.advance p state s
    | some c => (.waits next, state, s.await p c)

/-- What the loops need of the state: how their sweeps are answered and logged. -/
structure Host (σ : Type) where
  sweep : Routine σ Unit
  log : Event → σ → σ

structure Run (σ : Type) where
  state : σ
  schedule : Schedule
  sweeps : List (Nat × Routine σ Unit)

namespace Run

def begin (state : σ) : Run σ := ⟨state, .idle, []⟩

def log (h : Host σ) (r : Run σ) (e : Event) : Run σ := { r with state := h.log e r.state }

/-- Goes on with the sweep of a loop. When it ends, the loop's turn goes on. -/
def sweep (r : Run σ) (l : SweepLoop) (rest : Routine σ Unit) : Run σ :=
  let sweeps := r.sweeps.filter (·.1 ≠ l.number)
  match rest.advance (.loop l.number) r.state (r.schedule.setLoop { l with isSweeping := true }) with
  | (.finished (), state, s) =>
    let s := match s.loop? l.number with
      | some l => s.setLoop { l with isSweeping := false }
      | none => s
    ⟨state, { s with ready := l.number :: s.ready }, sweeps⟩
  | (.waits rest, state, s) => ⟨state, s, (l.number, rest) :: sweeps⟩

/-- The turn of a loop without a sweep: it stops if it was told to, sweeps if it is due, and
waits for its next tick otherwise. -/
def tick (h : Host σ) (r : Run σ) (l : SweepLoop) (due : Nat) : Run σ :=
  if l.isSignalled then
    let r := r.log h .schedulerStopped
    { r with schedule := r.schedule.finish l.number }
  else if due ≤ r.schedule.time then
    r.sweep { l with nextTick := some (l.tickAfter due r.schedule.time) } h.sweep
  else { r with schedule := r.schedule.await (.loop l.number) (.time due) }

/-- One turn of a loop. The first tick is due when the loop first runs. -/
def turn (h : Host σ) (r : Run σ) (l : SweepLoop) : Run σ :=
  match r.sweeps.lookup l.number, l.nextTick with
  | some rest, _ => r.sweep l rest
  | none, some due => r.tick h l due
  | none, none => (r.log h .schedulerStarted).tick h l r.schedule.time

/-- Runs a routine to its end with the loops beside it, in a bounded number of turns. Loops that
are ready come first, except that the routine precedes those that woke at the same time. -/
def complete? (h : Host σ) : (turns : Nat) → Routine σ α → Run σ → Option (α × Run σ)
  | 0, _, _ => none
  | turns + 1, main, r =>
    match r.schedule.ready with
    | number :: ready =>
      let r := { r with schedule := { r.schedule with ready } }
      match r.schedule.loop? number with
      | some l => complete? h turns main (r.turn h l)
      | none => complete? h turns main r
    | [] => do
      let s ← if r.schedule.isWaiting .main then r.schedule.next? else some r.schedule
      if s.isWaiting .main then complete? h turns main { r with schedule := s }
      else
        match main.advance .main r.state s with
        | (.finished a, state, schedule) => some (a, { r with state, schedule })
        | (.waits rest, state, schedule) => complete? h turns rest { r with state, schedule }

end Run

end BlobLifecycle
