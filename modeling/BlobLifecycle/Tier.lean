/-! Storage tiers and the size thresholds that choose among them. -/
namespace BlobLifecycle

inductive Tier where
  /-- The payload is part of the handle. -/
  | inline
  /-- The payload is a row of the table store. -/
  | medium
  /-- The payload is a directory of the bulk store. -/
  | large
  deriving DecidableEq, Repr

namespace Tier

def name : Tier → String
  | inline => "inline"
  | medium => "medium"
  | large => "large"

def ofName? : String → Option Tier
  | "inline" => some inline
  | "medium" => some medium
  | "large" => some large
  | _ => none

def tag : Tier → UInt8
  | inline => 1
  | medium => 2
  | large => 3

def ofTag? (b : UInt8) : Option Tier :=
  if b = 1 then some inline else if b = 2 then some medium else if b = 3 then some large else none

/-- Stored content is an object of its own, which the ledger tracks. -/
def isStored : Tier → Bool
  | inline => false
  | medium | large => true

@[simp] theorem ofName?_name (t : Tier) : ofName? t.name = some t := by cases t <;> rfl
@[simp] theorem ofTag?_tag (t : Tier) : ofTag? t.tag = some t := by cases t <;> rfl

theorem isStored_eq_false {t : Tier} : t.isStored = false ↔ t = .inline := by
  cases t <;> simp [isStored]

theorem tag_of_ofTag? {b : UInt8} {t : Tier} (h : ofTag? b = some t) : t.tag = b := by
  unfold ofTag? at h
  split at h
  · cases h; simp [tag, *]
  · split at h
    · cases h; simp [tag, *]
    · split at h <;> cases h
      simp [tag, *]

end Tier

/-- Sizes up to `inlineMax` stay in the handle, those above `mediumMax` go to the
bulk store and the rest to the table store. -/
structure Thresholds where
  inlineMax : Int
  mediumMax : Int
  deriving DecidableEq, Repr

namespace Thresholds

def select (t : Thresholds) (size : Int) : Tier :=
  if size ≤ t.inlineMax then .inline else if t.mediumMax < size then .large else .medium

end Thresholds

end BlobLifecycle
