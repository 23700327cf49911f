import BlobLifecycle.Tier

/-! The backends of the three tiers, with the thresholds that route blobs to them. -/
namespace BlobLifecycle

/-- What each backend reports as its own tier. -/
structure Registry where
  thresholds : Thresholds
  inline : Tier
  medium : Tier
  large : Tier
  deriving DecidableEq, Repr

inductive RegistryFault where
  | thresholdOrder (thresholds : Thresholds)
  | foreignBackend (expected reported : Tier)
  deriving DecidableEq, Repr

def RegistryFault.message : RegistryFault → String
  | thresholdOrder t =>
    s!"medium threshold ({t.mediumMax}) must not be below inline threshold ({t.inlineMax})"
  | foreignBackend expected reported =>
    s!"backend for {expected.name} tier reports tier {reported.name}"

namespace Registry

def backend (r : Registry) : Tier → Tier
  | .inline => r.inline
  | .medium => r.medium
  | .large => r.large

/-- Thresholds must be in order, and each backend must serve the tier it stands for. -/
def check (r : Registry) : Except RegistryFault Registry :=
  if r.thresholds.mediumMax < r.thresholds.inlineMax then .error (.thresholdOrder r.thresholds)
  else
    match [Tier.inline, .medium, .large].find? fun t => r.backend t ≠ t with
    | some t => .error (.foreignBackend t (r.backend t))
    | none => .ok r

/-- The backends of a vault, each for its own tier. -/
def ofThresholds (thresholds : Thresholds) : Except RegistryFault Registry :=
  check ⟨thresholds, .inline, .medium, .large⟩

end Registry

end BlobLifecycle
