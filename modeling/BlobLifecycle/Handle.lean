import BlobLifecycle.Error

/-! Handles: small values that stand for binary content inside records. An inline
handle carries its payload as the locator and may be copied freely; any other
names exactly one stored object. -/
namespace BlobLifecycle

/-- What a writer declares before the first byte. -/
structure BlobSpec where
  mediaType : String
  displayName : String
  size : Int
  deriving DecidableEq, Repr

structure Handle where
  mediaType : String
  size : Nat
  displayName : String
  tier : Tier
  locator : Locator
  deriving DecidableEq, Repr

namespace Handle

/-- Sizes stay below this bound. -/
def sizeLimit : Nat := 0x8000000000000000

def inline (mediaType displayName : String) (payload : Bytes) : Handle :=
  ⟨mediaType, payload.length, displayName, .inline, payload⟩

/-- A handle for an object of the table or bulk store. It refuses whatever its
encoding would not be read back from. -/
def stored (spec : BlobSpec) (tier : Tier) (locator : Locator) : Except BlobError Handle :=
  if tier = .inline then .error (.corruptHandle .notStored)
  else if spec.size < 0 then .error (.corruptHandle (.negativeSize spec.size))
  else if sizeLimit ≤ spec.size.toNat then .error (.corruptHandle .sizeOutOfRange)
  else if locator = [] then .error (.corruptHandle (.withoutLocator tier))
  else .ok ⟨spec.mediaType, spec.size.toNat, spec.displayName, tier, locator⟩

def label (h : Handle) : String :=
  match h.tier with
  | .inline => s!"inline:{h.locator.length}B"
  | .medium | .large => hexText h.locator

/-- The two handles read and delete the same object. -/
def SameObject (a b : Handle) : Prop := a.tier = b.tier ∧ a.locator = b.locator

instance (a b : Handle) : Decidable (a.SameObject b) := inferInstanceAs (Decidable (_ ∧ _))

end Handle

end BlobLifecycle
