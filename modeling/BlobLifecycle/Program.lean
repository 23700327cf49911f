import BlobLifecycle.Event
import BlobLifecycle.Ledger
import BlobLifecycle.Repository
import BlobLifecycle.Uuid

/-! Operations as programs over single requests. One request is one atomic step on
the ledger, on a store or on the repository; between two of them anything else may
happen. The same program is run whole, with other steps in between, or cut short. -/
namespace BlobLifecycle

/-- The writing end of one blob. Bulk content has a file once the first chunk came. -/
structure Sink where
  tier : Tier
  locator : Locator
  mediaType : String
  createdAt : Timestamp
  content : Bytes
  isOpen : Bool
  deriving DecidableEq, Repr

inductive Request where
  | now
  | log (event : Event)
  /-- Takes the sweep lock if it is free. -/
  | beginSweep
  | endSweep
  | incubate (locator : Locator) (tier : Tier) (time : Timestamp)
  | entry (locator : Locator)
  | claim (locator : Locator) (holder : RecordField) (time : Timestamp)
  | unclaim (locator : Locator) (holder : RecordField)
  | release (locator : Locator) (holder : RecordField)
  | condemn (observed : Entry) (time : Timestamp)
  | remove (locator : Locator)
  | listExpired (cutoff : Timestamp) (cursor : Option Locator) (limit : Nat)
  | openWrite (tier : Tier) (mediaType : String)
  | append (sink : Sink) (chunk : Bytes)
  | commit (sink : Sink)
  | openRead (tier : Tier) (locator : Locator)
  | delete (tier : Tier) (locator : Locator)
  | fieldType (field : FieldTypeId)
  | readField (record : RecordId) (version : Option Nat) (field : FieldTypeId)
  | fieldHistory (record : RecordId) (field : FieldTypeId)

namespace Request

abbrev Reply : Request → Type
  | now => Timestamp
  | log _ | endSweep => Unit
  | beginSweep => Bool
  | incubate .. => Except BlobError Unit
  | entry _ => Except BlobError (Option Entry)
  | claim .. => Except BlobError ClaimOutcome
  | unclaim .. | release .. | condemn .. | remove _ => Except BlobError Bool
  | listExpired .. => Except BlobError (List Entry)
  | openWrite .. | append .. => Except BlobError Sink
  | commit _ => Except BlobError Locator
  | openRead .. => Except BlobError Bytes
  | delete .. => Except BlobError Unit
  | fieldType _ => Except BlobError (Option FieldType)
  | readField .. => Except BlobError FieldRead
  | fieldHistory .. => Except BlobError (List FieldValue)

/-- The answer that reports a failure, for requests that can fail. -/
def failure? : (r : Request) → BlobError → Option r.Reply
  | now, _ | log _, _ | beginSweep, _ | endSweep, _ => none
  | incubate .., e | entry _, e | claim .., e | unclaim .., e | release .., e | condemn .., e
  | remove _, e | listExpired .., e | openWrite .., e | append .., e | commit _, e
  | openRead .., e | delete .., e | fieldType _, e | readField .., e | fieldHistory .., e =>
    some (.error e)

/-- Whether the answer takes the file system's time, while which others may run. Locators
without a directory are refused before. -/
def usesFiles : Request → Bool
  | append sink _ => sink.tier = .large && !sink.isOpen
  | commit sink => sink.tier = .large
  | openRead tier locator | delete tier locator => tier = .large && (Uuid.text? locator).isSome
  | _ => false

end Request

inductive Program (α : Type) : Type where
  | done (value : α)
  | call (request : Request) (next : request.Reply → Program α)

namespace Program

def bind : Program α → (α → Program β) → Program β
  | done a, f => f a
  | call r next, f => call r fun reply => (next reply).bind f

instance : Monad Program where
  pure := done
  bind := bind

/-- The program that makes one request and ends with its answer. -/
def ask (r : Request) : Program r.Reply := call r done

def log (event : Event) : Program Unit := ask (.log event)

/-- Runs a program with the given answers. -/
def interpret [Monad m] (answer : (r : Request) → m r.Reply) : Program α → m α
  | done a => pure a
  | call r next => do interpret answer (next (← answer r))

@[simp] theorem pure_eq (a : α) : (pure a : Program α) = done a := rfl
@[simp] theorem bind_done (a : α) (f : α → Program β) : (done a >>= f) = f a := rfl
@[simp] theorem bind_call (r : Request) (next : r.Reply → Program α) (f : α → Program β) :
    (call r next >>= f) = call r fun reply => next reply >>= f := rfl

theorem bind_assoc (p : Program α) (f : α → Program β) (g : β → Program γ) :
    (p >>= f) >>= g = p >>= fun a => f a >>= g := by
  induction p with
  | done a => rfl
  | call r next ih => simp only [bind_call]; congr; funext reply; exact ih reply

theorem bind_done_right (p : Program α) : (p >>= done) = p := by
  induction p with
  | done a => rfl
  | call r next ih => simp only [bind_call]; congr; funext reply; exact ih reply

instance : LawfulMonad Program := LawfulMonad.mk' Program
  (fun p => bind_done_right p) (fun _ _ => rfl) bind_assoc

theorem interpret_bind [Monad m] [LawfulMonad m] (answer : (r : Request) → m r.Reply)
    (p : Program α) (f : α → Program β) :
    interpret answer (p >>= f) = interpret answer p >>= fun a => interpret answer (f a) := by
  induction p with
  | done a => simp [interpret]
  | call r next ih =>
    simp only [bind_call, interpret, LawfulMonad.bind_assoc]
    congr; funext reply; exact ih reply

end Program

abbrev Operation := ExceptT BlobError Program

namespace Operation

/-- A request whose answer may be an error, which then ends the operation. -/
def ofReply (p : Program (Except BlobError α)) : Operation α := p

def ofExcept (result : Except BlobError α) : Operation α := .done result

def log (event : Event) : Operation Unit := ExceptT.lift (Program.log event)

def now : Operation Timestamp := ExceptT.lift (Program.ask .now)

end Operation

end BlobLifecycle
