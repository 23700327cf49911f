import BlobLifecycle.Handle

/-! The binary form of a handle: a tag byte for the tier, the size, then media
type, display name and locator, each behind its length. -/
namespace BlobLifecycle.Handle

/-- Bytes behind their length. -/
def block (bytes : Bytes) : Bytes := Varint.write (.ofNat bytes.length) ++ bytes

def encode (h : Handle) : Bytes :=
  h.tier.tag :: (Varint.write (.ofNat h.size) ++ block (utf8 h.mediaType) ++
    block (utf8 h.displayName) ++ block h.locator)

def readNumber (bytes : Bytes) : Except Corruption (Nat × Bytes) :=
  match Varint.read bytes with
  | .ok (word, rest) => .ok (word.toNat, rest)
  | .error failure => .error (.ofVarint failure)

def readTier : Bytes → Except Corruption (Tier × Bytes)
  | [] => .error .endOfHandle
  | tag :: rest =>
    match Tier.ofTag? tag with
    | some tier => .ok (tier, rest)
    | none => .error (.unknownTag tag)

def readSize (bytes : Bytes) : Except Corruption (Nat × Bytes) := do
  let (size, rest) ← readNumber bytes
  if size < sizeLimit then .ok (size, rest) else .error .sizeOutOfRange

def readBlock (bytes : Bytes) : Except Corruption (Bytes × Bytes) := do
  let (length, rest) ← readNumber bytes
  if length ≤ rest.length then .ok (rest.take length, rest.drop length)
  else .error .lengthExceedsHandle

def readText (part : TextPart) (bytes : Bytes) : Except Corruption (String × Bytes) := do
  let (raw, rest) ← readBlock bytes
  match utf8? raw with
  | some text => .ok (text, rest)
  | none => .error (.notUtf8 part)

/-- The parts must fit together as the constructors of handles demand. -/
def check (h : Handle) : Except Corruption Handle :=
  match h.tier with
  | .inline =>
    if h.locator.length = h.size then .ok h
    else .error (.inlineSize h.locator.length h.size)
  | .medium | .large => if h.locator = [] then .error (.withoutLocator h.tier) else .ok h

/-- Reads the parts in order and admits nothing after them. -/
def read (bytes : Bytes) : Except Corruption Handle := do
  let (tier, rest) ← readTier bytes
  let (size, rest) ← readSize rest
  let (mediaType, rest) ← readText .mediaType rest
  let (displayName, rest) ← readText .displayName rest
  let (locator, rest) ← readBlock rest
  if rest = [] then check ⟨mediaType, size, displayName, tier, locator⟩
  else .error (.trailingBytes rest.length)

def decode (bytes : Bytes) : Except BlobError Handle := (read bytes).mapError .corruptHandle

end BlobLifecycle.Handle
