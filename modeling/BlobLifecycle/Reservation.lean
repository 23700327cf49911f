import BlobLifecycle.Program

/-! Claims around a record commit: `reserve` before the record is written, `confirm`
after it. Inline handles carry their content and need neither. -/
namespace BlobLifecycle

namespace Reference

def claim (r : Reference) (now : Timestamp) : Operation Bool := do
  match ← .ofReply (.ask (.claim r.handle.locator r.holder now)) with
  | .claimed =>
    Operation.log (.reserved r.handle.label r.holder)
    return true
  | .renewed =>
    Operation.log (.reserved r.handle.label r.holder)
    return false
  | .missing => throw (.invalidRecord (.unavailable r.handle.label))
  | .conflict entry =>
    throw (.invalidRecord
      (.unusable r.handle.label r.record (entry.obstacle .changedConcurrently)))

/-- Takes back one claim. Failure is logged only. -/
def undo (r : Reference) : Program Unit := do
  match ← .ask (.unclaim r.handle.locator r.holder) with
  | .ok true => return ()
  | .ok false => .log (.claimChanged r.handle.label r.record)
  | .error e => .log (.undoFailed r.handle.label r.record e)

def lost (r : Reference) (obstacle : Obstacle) : Operation Unit := do
  Operation.log (.lost r.handle.label r.record obstacle)
  throw (.invalidRecord (.unconfirmable r.handle.label r.record obstacle))

/-- Content without an entry was confirmed before. -/
def checkConfirmed (r : Reference) : Operation Unit := do
  match ← .ofReply (.ask (.entry r.handle.locator)) with
  | some entry => r.lost (entry.obstacle .notClaimed)
  | none =>
    match ← ExceptT.lift (.ask (.openRead r.handle.tier r.handle.locator)) with
    | .ok _ => Operation.log (.alreadyConfirmed r.handle.label)
    | .error e => if e.isNotFound then r.lost .reaped else throw e

def confirm (r : Reference) : Operation Unit := do
  let released ← .ofReply (.ask (.release r.handle.locator r.holder))
  if !released then r.checkConfirmed

end Reference

def undoAll : List Reference → Program Unit
  | [] => return ()
  | r :: rest => do
    r.undo
    undoAll rest

/-- Claims in order. The first failure takes back, in order, the claims newly made. -/
def claimAll (now : Timestamp) : List Reference → List Reference → Operation Unit
  | [], _ => return ()
  | r :: rest, claimed => ExceptT.mk do
    match ← (r.claim now).run with
    | .ok true => claimAll now rest (claimed ++ [r])
    | .ok false => claimAll now rest claimed
    | .error e => do
      undoAll claimed
      return .error e

def storedReferences (references : List Reference) : List Reference :=
  references.filter (·.handle.tier.isStored)

/-- Claims every stored handle for its record and field, all or none. A claim begins the
grace interval of its entry anew. -/
def reserve (references : List Reference) : Operation Unit := do
  let now ← Operation.now
  claimAll now (storedReferences references) []

def confirmAll : List Reference → Operation Unit
  | [] => return ()
  | r :: rest => do
    r.confirm
    confirmAll rest

/-- Drops the entries after the record was written durably. -/
def confirm (references : List Reference) : Operation Unit :=
  confirmAll (storedReferences references)

end BlobLifecycle
