/-! Routines: computations over one state that take turns. A routine runs alone until it waits;
meanwhile others may run. -/
namespace BlobLifecycle

/-- What a routine waits for. Times are those of the timers, in milliseconds. -/
inductive Wait where
  | time (interval : Nat)
  | files
  /-- That a loop stops, but not longer than the interval. -/
  | loop (number interval : Nat)
  deriving DecidableEq, Repr

/-- What a routine asks of the schedule that runs it. -/
inductive Order where
  /-- Spawns a loop of the current scheduler, or of a new one with the given period. -/
  | start (period : Nat)
  /-- Tells the loops of the current scheduler to stop. -/
  | stop
  /-- Stops the current scheduler's loops and forgets it. -/
  | drop
  /-- The oldest loop that nobody has seen stop. -/
  | oldest
  /-- Whether a loop has stopped, which is then seen. -/
  | sees (number : Nat)
  deriving DecidableEq, Repr

abbrev Order.Reply : Order → Type
  | start _ | stop | drop => Unit
  | oldest => Option Nat
  | sees _ => Bool

inductive Routine (σ α : Type) : Type where
  | done (value : α)
  | read (next : σ → Routine σ α)
  | write (state : σ) (next : Routine σ α)
  | order (o : Order) (next : o.Reply → Routine σ α)
  | wait (w : Wait) (next : Routine σ α)

namespace Routine

def bind : Routine σ α → (α → Routine σ β) → Routine σ β
  | done a, f => f a
  | read next, f => read fun s => (next s).bind f
  | write s next, f => write s (next.bind f)
  | order o next, f => order o fun reply => (next reply).bind f
  | wait w next, f => wait w (next.bind f)

instance : Monad (Routine σ) where
  pure := done
  bind := bind

instance : MonadStateOf σ (Routine σ) where
  get := read done
  set s := write s (done ())
  modifyGet f := read fun s => write (f s).2 (done (f s).1)

theorem bind_assoc (t : Routine σ α) (f : α → Routine σ β) (g : β → Routine σ γ) :
    (t >>= f) >>= g = t >>= fun a => f a >>= g := by
  induction t with
  | done a => rfl
  | read next ih => exact congrArg read (funext ih)
  | write s next ih => exact congrArg (write s) ih
  | order o next ih => exact congrArg (order o) (funext ih)
  | wait w next ih => exact congrArg (wait w) ih

theorem bind_done_right (t : Routine σ α) : (t >>= done) = t := by
  induction t with
  | done a => rfl
  | read next ih => exact congrArg read (funext ih)
  | write s next ih => exact congrArg (write s) ih
  | order o next ih => exact congrArg (order o) (funext ih)
  | wait w next ih => exact congrArg (wait w) ih

instance : LawfulMonad (Routine σ) := LawfulMonad.mk' (Routine σ)
  (fun t => bind_done_right t) (fun _ _ => rfl) bind_assoc

def send (o : Order) : Routine σ o.Reply := order o done

def pause (w : Wait) : Routine σ Unit := wait w (done ())

def joinTimeout : Nat := 5

/-- Waits for the oldest loop to stop; says whether there is none or it did. -/
def join : Routine σ Bool := do
  match ← send .oldest with
  | none => return true
  | some number =>
    pause (.loop number joinTimeout)
    send (.sees number)

end Routine

end BlobLifecycle
