import BlobLifecycle.Deletion

/-! What values hold, said of their plain elements, and the one traversal against it: what is
searched, flattened, introduced and freed are facts about membership. -/
namespace BlobLifecycle

/-- The handles of a value in the order of their coordinates, repetitions included. -/
def FieldValue.elements : FieldValue → List Handle
  | blob h => [h]
  | list hs | path hs => hs
  | paths ps => ps.flatten

def Hold (values : List FieldValue) (h : Handle) : Prop := ∃ value ∈ values, h ∈ value.elements

/-- The values hold a handle of the object, whatever else it says. -/
def HoldObject (values : List FieldValue) (tier : Tier) (locator : Locator) : Prop :=
  ∃ h, Hold values h ∧ h.tier = tier ∧ h.locator = locator

section

variable {values others : List FieldValue} {value : Option FieldValue} {h : Handle} {tier : Tier}
  {locator : Locator}

@[simp] theorem hold_nil : ¬Hold [] h := by
  simp [Hold]

theorem hold_congr (same : ∀ value, value ∈ others ↔ value ∈ values) :
    Hold others h ↔ Hold values h := by
  simp only [Hold, same]

theorem hold_toList : Hold value.toList h ↔ ∃ v, value = some v ∧ h ∈ v.elements := by
  simp [Hold]

theorem hold_append : Hold (values ++ others) h ↔ Hold values h ∨ Hold others h := by
  simp [Hold, or_and_right, exists_or]

theorem hold_filterMap {α : Type} {l : List α} {f : α → Option FieldValue} :
    Hold (l.filterMap f) h ↔ ∃ a ∈ l, Hold (f a).toList h := by
  simp only [Hold, List.mem_filterMap, Option.mem_toList]
  constructor
  · rintro ⟨value, ⟨a, member, found⟩, listed⟩
    exact ⟨a, member, value, found, listed⟩
  · rintro ⟨a, member, value, found, listed⟩
    exact ⟨value, ⟨a, member, found⟩, listed⟩

theorem holdObject_iff : HoldObject values tier locator ↔
    ∃ value ∈ values, ∃ h ∈ value.elements, h.tier = tier ∧ h.locator = locator := by
  constructor
  · rintro ⟨h, ⟨value, member, listed⟩, same⟩
    exact ⟨value, member, h, listed, same⟩
  · rintro ⟨value, member, h, listed, same⟩
    exact ⟨h, ⟨value, member, listed⟩, same⟩

instance : Decidable (HoldObject values tier locator) := decidable_of_iff' _ holdObject_iff

end

namespace FieldValue

theorem visitSequence_search (p : Handle → Bool) (coordinates : Nat → List Nat) (i : Nat)
    (hs : List Handle) :
    visitSequence (fun _ _ h => if p h then .done true else .yield false) coordinates i hs false =
      if hs.any p then .done true else .yield false := by
  induction hs generalizing i with
  | nil => rfl
  | cons h rest ih =>
    rw [visitSequence]
    by_cases found : p h
    · simp [found]
    · simp [found, ih]

theorem visitPaths_search (p : Handle → Bool) (i : Nat) (ps : List HierarchyPath) :
    visitPaths (fun _ _ h => if p h then .done true else .yield false) i ps false =
      if ps.flatten.any p then .done true else .yield false := by
  induction ps generalizing i with
  | nil => rfl
  | cons path rest ih =>
    rw [visitPaths, visitSequence_search]
    by_cases found : path.any p
    · simp only [found, if_true, List.flatten_cons, List.any_append, Bool.true_or]
    · simp only [found, Bool.false_eq_true, if_false, ih, List.flatten_cons, List.any_append,
        Bool.false_or]

/-- The search stops early and still answers for all elements. -/
theorem anyHandle_eq (value : FieldValue) (p : Handle → Bool) :
    value.anyHandle p = value.elements.any p := by
  have finish (b : Bool) :
      (if b = true then ForInStep.done true else ForInStep.yield false).value = b := by
    cases b <;> rfl
  unfold anyHandle
  cases value with
  | blob h => simp [visit, elements, finish]
  | list hs => simp only [visit, elements, visitSequence_search, finish]
  | path hs => simp only [visit, elements, visitSequence_search, finish]
  | paths ps => simp only [visit, elements, visitPaths_search, finish]

theorem visitSequence_collect (coordinates : Nat → List Nat) (i : Nat) (hs s : List Handle) :
    visitSequence (fun s _ h => .yield (s ++ [h])) coordinates i hs s = .yield (s ++ hs) := by
  induction hs generalizing i s with
  | nil => simp [visitSequence]
  | cons h rest ih => simp [visitSequence, ih]

theorem visitPaths_collect (i : Nat) (ps : List HierarchyPath) (s : List Handle) :
    visitPaths (fun s _ h => .yield (s ++ [h])) i ps s = .yield (s ++ ps.flatten) := by
  induction ps generalizing i s with
  | nil => simp [visitPaths]
  | cons path rest ih => simp [visitPaths, visitSequence_collect, ih]

theorem mem_handles {value : FieldValue} {h : Handle} : h ∈ value.handles ↔ h ∈ value.elements := by
  unfold handles
  rw [List.mem_eraseDups]
  cases value <;>
    simp [visit, elements, ForInStep.value, visitSequence_collect, visitPaths_collect]

/-- Whether the values hold the object is found out by a search of each. -/
theorem any_holdsObject {values : List FieldValue} {tier : Tier} {locator : Locator} :
    values.any (·.holdsObject tier locator) = true ↔ HoldObject values tier locator := by
  simp [holdsObject, anyHandle_eq, holdObject_iff]

end FieldValue

namespace HandleSet

theorem mem_ofValue {value : Option FieldValue} {h : Handle} :
    h ∈ ofValue value ↔ Hold value.toList h := by
  rw [hold_toList]
  cases value <;> simp [ofValue, FieldValue.mem_handles]

theorem mem_ofValues {values : List FieldValue} {h : Handle} :
    h ∈ ofValues values ↔ Hold values h := by
  simp [ofValues, Hold, FieldValue.mem_handles]

theorem mem_without {a b : HandleSet} {h : Handle} : h ∈ a.without b ↔ h ∈ a ∧ h ∉ b := by
  simp [without]

theorem mem_union {a b : HandleSet} {h : Handle} : h ∈ a.union b ↔ h ∈ a ∨ h ∈ b := by
  simp [union]

end HandleSet

theorem mem_sortByLocator {handles : HandleSet} {h : Handle} :
    h ∈ sortByLocator handles ↔ h ∈ handles := List.mem_mergeSort

namespace FieldChange

/-- A handle of the new value is either in the replaced value, or introduced, or inline. -/
theorem mem_introduced {c : FieldChange} {h : Handle} :
    h ∈ c.introduced ↔ Hold c.after.toList h ∧ h.tier.isStored = true ∧ ¬Hold c.before.toList h := by
  simp only [introduced, HandleSet.mem_without, List.mem_filter, HandleSet.mem_ofValue, and_assoc]

theorem mem_references {c : FieldChange} {record : RecordId} {r : Reference} :
    r ∈ c.references record ↔ r.handle ∈ c.introduced ∧ r.holder = ⟨record, c.field⟩ := by
  obtain ⟨handle, owner, field⟩ := r
  simp only [references, List.mem_map, mem_sortByLocator, Reference.mk.injEq, Reference.holder,
    RecordField.mk.injEq]
  constructor
  · rintro ⟨h, member, rfl, rfl, rfl⟩
    exact ⟨member, rfl, rfl⟩
  · rintro ⟨member, rfl, rfl⟩
    exact ⟨handle, member, rfl, rfl, rfl⟩

/-- Only replacing changes free handles, and only those that no remaining value holds. -/
theorem mem_freed {c : FieldChange} {h : Handle} :
    h ∈ c.freed ↔ c.scope.replacesValue c.mutation = true ∧ Hold c.before.toList h ∧
      ¬Hold c.after.toList h ∧ ¬Hold c.retained h := by
  unfold freed freedHandles
  split
  · next replaces =>
    simp only [HandleSet.mem_without, HandleSet.mem_ofValue, HandleSet.mem_ofValues, replaces,
      true_and, and_assoc]
  · next keeps => simp [keeps]

end FieldChange

namespace BlobPlan

theorem mem_toReserve {record : RecordId} {changes : List FieldChange} {r : Reference} :
    r ∈ (ofChanges record changes).toReserve ↔
      ∃ c ∈ changes, r.handle ∈ c.introduced ∧ r.holder = ⟨record, c.field⟩ := by
  simp only [ofChanges, List.mem_flatMap, FieldChange.mem_references]

theorem mem_toDelete {record : RecordId} {changes : List FieldChange} {h : Handle} :
    h ∈ (ofChanges record changes).toDelete ↔ ∃ c ∈ changes, h ∈ c.freed := by
  have fold (set : HandleSet) :
      h ∈ changes.foldl (fun set c => HandleSet.union set c.freed) set ↔
        h ∈ set ∨ ∃ c ∈ changes, h ∈ c.freed := by
    induction changes generalizing set with
    | nil => simp
    | cons c rest ih => simp [ih, HandleSet.mem_union, or_assoc]
  simpa [ofChanges] using fold []

end BlobPlan

end BlobLifecycle
