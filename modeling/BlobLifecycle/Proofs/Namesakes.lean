import BlobLifecycle.Proofs.Traversal
import BlobLifecycle.Reading
import BlobLifecycle.Vault

/-! What a mutation frees against what its record still holds. Sets of handles are compared
handle by handle, but a store, the ledger and a sweep know an object by its tier and locator
alone: a handle that describes a held object in other words is freed, and the object with it. -/
namespace BlobLifecycle

/-- No stored handle of the set names an object that one of the values holds. -/
def HandleSet.Spares (freed : HandleSet) (values : List FieldValue) : Prop :=
  ∀ h ∈ freed, h.tier.isStored = true → ¬HoldObject values h.tier h.locator

/-- Stored handles of the former values that name an object of the values are themselves handles
of the values. -/
def Agree (former values : List FieldValue) : Prop :=
  ∀ h, Hold former h → h.tier.isStored = true → HoldObject values h.tier h.locator → Hold values h

theorem HandleSet.spares_nil (values : List FieldValue) : Spares [] values := nofun

/-- Taking away the handles of the values spares their objects if the two notions agree. -/
theorem HandleSet.spares_iff_agree {freed : HandleSet} {former values : List FieldValue}
    (rest : ∀ h, h ∈ freed ↔ Hold former h ∧ ¬Hold values h) :
    freed.Spares values ↔ Agree former values := by
  constructor
  · intro spares h held stored object
    refine Classical.byContradiction fun apart => ?_
    exact spares h ((rest h).2 ⟨held, apart⟩) stored object
  · intro agree h member stored object
    obtain ⟨held, apart⟩ := (rest h).1 member
    exact apart (agree h held stored object)

namespace FieldChange

def kept (c : FieldChange) : List FieldValue := c.after.toList ++ c.retained

theorem mem_freed_of_replaces {c : FieldChange} (replaces : c.scope.replacesValue c.mutation = true)
    (h : Handle) : h ∈ c.freed ↔ Hold c.before.toList h ∧ ¬Hold c.kept h := by
  simp only [mem_freed, replaces, true_and, kept, hold_append, not_or]

/-- Only a mutation that replaces a value can harm what is kept. -/
theorem freed_spares (c : FieldChange) :
    c.freed.Spares c.kept ↔
      (c.scope.replacesValue c.mutation = true → Agree c.before.toList c.kept) := by
  by_cases replaces : c.scope.replacesValue c.mutation = true
  · rw [HandleSet.spares_iff_agree (mem_freed_of_replaces replaces)]
    exact ⟨fun agree _ => agree, fun agree => agree replaces⟩
  · have none_freed : c.freed = [] := if_neg replaces
    rw [none_freed]
    exact ⟨fun _ replaced => (replaces replaced).elim, fun _ => HandleSet.spares_nil _⟩

end FieldChange

theorem freedByVersion_spares (values others : List FieldValue) :
    (freedByVersion values others).Spares others ↔ Agree values others := by
  refine HandleSet.spares_iff_agree fun h => ?_
  rw [freedByVersion, HandleSet.mem_without, HandleSet.mem_ofValues, HandleSet.mem_ofValues]

theorem planned_spares (c : FieldChange) (record : RecordId) :
    (BlobPlan.ofChanges record [c]).toDelete.Spares c.kept ↔ c.freed.Spares c.kept := by
  simp only [HandleSet.Spares, BlobPlan.mem_toDelete, List.mem_singleton, exists_eq_left]

/-- Objects that are held on are spared, whatever is replaced, exactly if no stored handle of
the replaced values describes a held object otherwise than it is held. -/
theorem held_objects_spared_iff (v : Vault) (old new : Option FieldValue) (scope : Scope)
    (retained values others : List FieldValue) (record : RecordId) (c : FieldChange) :
    ((freedByUpdate old new scope).Spares new.toList ↔
      (scope = .nonVersioned → Agree old.toList new.toList)) ∧
    ((freedByOverwrite old new scope retained).Spares (new.toList ++ retained) ↔
      (scope ≠ .versioned → Agree old.toList (new.toList ++ retained))) ∧
    ((freedByVersion values others).Spares others ↔ Agree values others) ∧
    ((v.run (planMutation record [c])).1.toDelete.Spares (c.after.toList ++ c.retained) ↔
      (c.scope.replacesValue c.mutation = true →
        Agree c.before.toList (c.after.toList ++ c.retained))) := by
  refine ⟨?_, ?_, freedByVersion_spares values others,
    (planned_spares c record).trans c.freed_spares⟩
  · have update := FieldChange.freed_spares ⟨c.field, scope, old, new, .newVersion, []⟩
    simp only [FieldChange.kept, List.append_nil] at update
    refine update.trans ?_
    cases scope <;> simp [Scope.replacesValue]
  · have overwrite := FieldChange.freed_spares ⟨c.field, scope, old, new, .inPlace, retained⟩
    refine overwrite.trans ?_
    cases scope <;> simp [Scope.replacesValue, FieldChange.kept]

namespace Sample

/-- One row of the table store, and two handles that name it. -/
def report : Handle := ⟨"text/plain", 1, "report", .medium, [7]⟩
def renamed : Handle := { report with displayName := "annual report" }

def bothNames : FieldValue := .list [report, renamed]
def firstName : FieldValue := .list [report]

def dropName : FieldChange :=
  ⟨⟨"f"⟩, .nonVersioned, some bothNames, some firstName, .newVersion, []⟩

def filed : Vault :=
  { Vault.empty "root" false 0 with
    medium := (∅ : MediumStore).insert [7] ⟨"text/plain", [65], 0⟩ }

end Sample

/-- The value holds on to an object, and with the name that it drops the object is deleted:
the plan, an update, an overwrite and the deletion of a version all free it. -/
theorem dropped_name_frees_held_object :
    (Sample.filed.run (openRead Sample.report).run).1 = .ok [65] ∧
      Sample.renamed.tier.isStored = true ∧
      HoldObject [Sample.firstName] Sample.renamed.tier Sample.renamed.locator ∧
      freedByUpdate (some Sample.bothNames) (some Sample.firstName) .nonVersioned =
        [Sample.renamed] ∧
      freedByOverwrite (some Sample.bothNames) none .versionedMutable [Sample.firstName] =
        [Sample.renamed] ∧
      freedByVersion [Sample.bothNames] [Sample.firstName] = [Sample.renamed] ∧
      (Sample.filed.run (planMutation ⟨"r"⟩ [Sample.dropName])).1.toDelete = [Sample.renamed] ∧
      ((Sample.filed.run (deleteNow [Sample.renamed])).2.run (openRead Sample.report).run).1 =
        .error (.notFound .medium [7]) :=
  ⟨rfl, rfl, by decide, by decide, by decide, by decide, by decide, rfl⟩

end BlobLifecycle
