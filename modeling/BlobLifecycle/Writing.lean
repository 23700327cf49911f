import BlobLifecycle.Program

/-! Writes of a declared size: the tier is fixed before the first byte, and stored
content has its ledger entry before any byte is accepted. -/
namespace BlobLifecycle

/-- An open write. Abandoning it leaves the entry to a sweep. -/
structure WriteSession where
  spec : BlobSpec
  tier : Tier
  sink : Sink
  written : Int
  deriving DecidableEq, Repr

/-- The locator issued for this write; inline writes have none. -/
def WriteSession.locator (s : WriteSession) : Locator := s.sink.locator

def openWrite (thresholds : Thresholds) (spec : BlobSpec) : Operation WriteSession := do
  if spec.size < 0 then throw (.sizeMismatch spec.size 0)
  let tier := thresholds.select spec.size
  let sink ← .ofReply (.ask (.openWrite tier spec.mediaType))
  if tier.isStored then
    let now ← Operation.now
    Operation.ofReply (.ask (.incubate sink.locator tier now))
    Operation.log (.incubating sink.locator)
  return ⟨spec, tier, sink, 0⟩

namespace WriteSession

/-- Accepts a chunk that stays within the declared size. -/
def write (s : WriteSession) (chunk : Bytes) : Operation WriteSession := do
  let written := s.written + chunk.length
  if s.spec.size < written then throw (.sizeMismatch s.spec.size written)
  let sink ← .ofReply (.ask (.append s.sink chunk))
  return { s with sink, written }

def storedEvent? (s : WriteSession) : Option Event :=
  match s.tier with
  | .inline => none
  | .medium => some (.mediumStored s.locator s.sink.content.length)
  | .large => some (.largeStored s.locator s.sink.content.length)

/-- Commits the content and makes the handle for it. -/
def finish (s : WriteSession) : Operation Handle := do
  if s.written ≠ s.spec.size then throw (.sizeMismatch s.spec.size s.written)
  let locator ← .ofReply (.ask (.commit s.sink))
  if let some event := s.storedEvent? then Operation.log event
  match s.tier with
  | .inline => return .inline s.spec.mediaType s.spec.displayName locator
  | tier =>
    if locator ≠ s.locator then throw (.storage (.foreignLocator tier))
    .ofExcept (Handle.stored s.spec tier locator)

end WriteSession

def writeBlob (thresholds : Thresholds) (mediaType displayName : String) (bytes : Bytes) :
    Operation Handle := do
  let s ← openWrite thresholds ⟨mediaType, displayName, bytes.length⟩
  let s ← s.write bytes
  s.finish

end BlobLifecycle
