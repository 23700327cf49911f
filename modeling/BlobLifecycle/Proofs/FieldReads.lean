import BlobLifecycle.Proofs.Addressing
import BlobLifecycle.Reading
import BlobLifecycle.Vault

/-! Reads of record fields. Whatever stands in the way of one is a fault by itself, and the answer
is the first of them: schema before record, record before shape, indexes before content. -/
namespace BlobLifecycle

/-- The content that a handle names. What is written in part cannot be read. -/
def Vault.content? (v : Vault) (h : Handle) : Option Bytes :=
  match h.tier with
  | .inline => some h.locator
  | .medium => (v.medium.find? h.locator).map (·.content)
  | .large =>
    if h.locator.length = 16 then
      match v.large.object? h.locator with
      | some (.directory d) => d.content
      | _ => none
    else none

structure FieldQuery where
  record : RecordId
  version : Option Nat
  field : FieldTypeId
  indexes : List Nat
  deriving DecidableEq, Repr

namespace FieldQuery

variable (q : FieldQuery) (v : Vault)

def Finds (content : Bytes) : Prop :=
  ∃ type value h, v.repository.fieldType q.field = .ok (some type) ∧ type.kind = .blob ∧
    v.repository.readField q.record q.version q.field = .ok (.value value) ∧
    value.shape = type.shape ∧ q.indexes.length = value.shape.arity ∧
    value.at? q.indexes = some h ∧ v.content? h = some content

/-- What may stand in the way, and its error. The number is its place in the order; faults of one
number exclude each other. -/
inductive Fault : Nat → BlobError → Prop where
  | schemaFails {e} (answer : v.repository.fieldType q.field = .error e) : Fault 0 e
  | typeMissing (answer : v.repository.fieldType q.field = .ok none) :
    Fault 0 (.fieldTypeNotFound q.field)
  | otherKind {type} (answer : v.repository.fieldType q.field = .ok (some type))
    (other : type.kind ≠ .blob) : Fault 1 (.notABlobField q.field)
  | recordFails {e} (answer : v.repository.readField q.record q.version q.field = .error e) :
    Fault 2 e
  | recordMissing (answer : v.repository.readField q.record q.version q.field = .ok .recordMissing) :
    Fault 2 (.recordNotFound q.record)
  | fieldAbsent (answer : v.repository.readField q.record q.version q.field = .ok .fieldAbsent) :
    Fault 3 (.fieldNotFound q.record q.field)
  | otherShape {type value} (declared : v.repository.fieldType q.field = .ok (some type))
    (present : v.repository.readField q.record q.version q.field = .ok (.value value))
    (other : value.shape ≠ type.shape) :
    Fault 4 (.storage (.shapeMismatch q.field value.shape type.shape))
  | miscounted {value}
    (present : v.repository.readField q.record q.version q.field = .ok (.value value))
    (other : q.indexes.length ≠ value.shape.arity) :
    Fault 5 (.invalidAddressing value.shape q.indexes.length)
  | outOfRange {value}
    (present : v.repository.readField q.record q.version q.field = .ok (.value value))
    (counted : q.indexes.length = value.shape.arity) (nothing : value.at? q.indexes = none) :
    Fault 6 (.indexOutOfBounds value.shape q.indexes)
  | misnamed {value h}
    (present : v.repository.readField q.record q.version q.field = .ok (.value value))
    (found : value.at? q.indexes = some h) (large : h.tier = .large)
    (other : h.locator.length ≠ 16) : Fault 7 (.corruptHandle (.notUuid h.locator))
  | missing {value h}
    (present : v.repository.readField q.record q.version q.field = .ok (.value value))
    (found : value.at? q.indexes = some h) (named : h.tier = .large → h.locator.length = 16)
    (unobstructed : h.tier = .large → v.large.object? h.locator ≠ some .plainFile)
    (nothing : v.content? h = none) : Fault 7 (.notFound h.tier h.locator)
  /-- A plain file stands where the directory of the object should be. -/
  | obstructed {value h directory}
    (present : v.repository.readField q.record q.version q.field = .ok (.value value))
    (found : value.at? q.indexes = some h) (large : h.tier = .large)
    (named : v.large.directoryOf h.locator = .ok directory)
    (plain : v.large.object? h.locator = some .plainFile) :
    Fault 7 (.storage (.io (Path.join directory LargeStore.contentFile)))

def Clear (place : Nat) : Prop := ∀ earlier < place, ∀ e, ¬q.Fault v earlier e

def Outcome : Except BlobError Bytes → Prop
  | .ok content => q.Finds v content
  | .error e => ∃ place, q.Fault v place e ∧ q.Clear v place

end FieldQuery

namespace Vault

variable (v : Vault)

theorem run_bind (x : Operation α) (f : α → Operation β) :
    v.run (x >>= f).run = match v.run x.run with
      | (.ok a, v') => v'.run (f a).run
      | (.error e, v') => (.error e, v') := by
  unfold run
  rw [ExceptT.run_bind, Program.interpret_bind]
  simp only [bind, StateT.bind]
  cases x.run.interpret answer v with
  | mk result v' => cases result <;> rfl

theorem run_fieldType (field : FieldTypeId) :
    v.run (Operation.ofReply (.ask (.fieldType field))).run = (v.repository.fieldType field, v) := rfl

theorem run_readField (record : RecordId) (version : Option Nat) (field : FieldTypeId) :
    v.run (Operation.ofReply (.ask (.readField record version field))).run =
      (v.repository.readField record version field, v) := rfl

end Vault

theorem LargeStore.directoryOf_cases (store : LargeStore) (locator : Locator) :
    (∃ directory, locator.length = 16 ∧ store.directoryOf locator = .ok directory) ∨
      locator.length ≠ 16 ∧ store.directoryOf locator = .error (.corruptHandle (.notUuid locator)) := by
  unfold directoryOf Uuid.text?
  by_cases named : locator.length = 16
  · simp [named]
  · simp [named]

namespace FieldQuery

variable {q : FieldQuery} {v : Vault} {place : Nat} {e e' : BlobError} {content : Bytes}

theorem Finds.faultless (finds : q.Finds v content) : ¬q.Fault v place e := by
  obtain ⟨type, value, h, declared, blob, present, same, counted, found, stored⟩ := finds
  intro fault
  cases fault with
  | misnamed _ _ large other | obstructed _ _ large _ _ => simp_all [Vault.content?]
  | _ => simp_all

theorem Fault.unique (fault : q.Fault v place e) (fault' : q.Fault v place e') : e = e' := by
  have named (locator : Locator) := v.large.directoryOf_cases locator
  cases fault <;> cases fault' <;> simp_all
  all_goals grind

theorem Outcome.unique {result result' : Except BlobError Bytes} (outcome : q.Outcome v result)
    (outcome' : q.Outcome v result') : result = result' := by
  cases result with
  | ok content =>
    cases result' with
    | ok content' =>
      obtain ⟨type, value, h, -, -, present, -, -, found, stored⟩ := outcome
      obtain ⟨type', value', h', -, -, present', -, -, found', stored'⟩ := outcome'
      simp_all
    | error e' =>
      obtain ⟨place, fault, -⟩ := outcome'
      exact (outcome.faultless fault).elim
  | error e =>
    obtain ⟨place, fault, clear⟩ := outcome
    cases result' with
    | ok content' => exact (outcome'.faultless fault).elim
    | error e' =>
      obtain ⟨place', fault', clear'⟩ := outcome'
      have same : place = place' := by
        refine Nat.le_antisymm (Nat.not_lt.1 fun before => ?_) (Nat.not_lt.1 fun before => ?_)
        · exact clear place' before e' fault'
        · exact clear' place before e fault
      subst same
      rw [fault.unique fault']

theorem Clear.zero : q.Clear v 0 := nofun

theorem Clear.next (clear : q.Clear v place) (passed : ∀ e, ¬q.Fault v place e) :
    q.Clear v (place + 1) := by
  intro earlier before
  rcases Nat.lt_succ_iff_lt_or_eq.1 before with before | rfl
  · exact clear earlier before
  · exact passed

section

variable {type : FieldType} {value : FieldValue} {h : Handle}

/-- The stores answer for the handle that was found. -/
theorem content_outcome (declared : v.repository.fieldType q.field = .ok (some type))
    (blob : type.kind = .blob)
    (present : v.repository.readField q.record q.version q.field = .ok (.value value))
    (same : value.shape = type.shape) (found : value.at? q.indexes = some h) (clear : q.Clear v 7) :
    q.Outcome v (v.read h.tier h.locator) := by
  have finds {content : Bytes} (stored : v.content? h = some content) : q.Finds v content :=
    ⟨type, value, h, declared, blob, present, same, FieldValue.length_of_at? found, found, stored⟩
  cases tier : h.tier with
  | inline =>
    apply finds
    simp [Vault.content?, tier]
  | medium =>
    simp only [Vault.read, MediumStore.read]
    cases stored : v.medium.find? h.locator with
    | some blob =>
      apply finds
      simp [Vault.content?, tier, stored]
    | none =>
      refine ⟨7, ?_, clear⟩
      rw [← tier]
      apply Fault.missing present found
      · simp [tier]
      · simp [tier]
      · simp [Vault.content?, tier, stored]
  | large =>
    rcases v.large.directoryOf_cases h.locator with ⟨directory, size, named⟩ | ⟨other, named⟩
    · simp only [Vault.read, LargeStore.read, named, bind, Except.bind]
      have nothing (unread : ∀ d, v.large.object? h.locator = some (.directory d) → d.content = none)
          (unobstructed : v.large.object? h.locator ≠ some .plainFile) :
          q.Fault v 7 (.notFound .large h.locator) := by
        rw [← tier]
        apply Fault.missing present found
        · simp [size]
        · simp [unobstructed]
        · simp only [Vault.content?, tier, size, if_true]
          split
          · next d there => exact unread d there
          · rfl
      cases there : v.large.object? h.locator with
      | none => exact ⟨7, nothing (by simp [there]) (by simp [there]), clear⟩
      | some object =>
        cases object with
        | plainFile => exact ⟨7, .obstructed present found tier named there, clear⟩
        | directory d =>
          cases written : d.content with
          | some content =>
            simp only [written]
            apply finds
            simp [Vault.content?, tier, size, there, written]
          | none =>
            simp only [written]
            exact ⟨7, nothing (by simp [there, written]) (by simp [there]), clear⟩
    · simp only [Vault.read, LargeStore.read, named, bind, Except.bind]
      exact ⟨7, .misnamed present found tier other, clear⟩

/-- The record's answer is judged after the field type's. -/
theorem value_outcome (declared : v.repository.fieldType q.field = .ok (some type))
    (blob : type.kind = .blob)
    (present : v.repository.readField q.record q.version q.field = .ok (.value value))
    (known : q.Clear v 4) : ∃ result,
    v.run (do
      if value.shape ≠ type.shape then
        throw (.storage (.shapeMismatch q.field value.shape type.shape))
      let h ← Operation.ofExcept (value.resolve q.indexes)
      openRead h : Operation Bytes).run = (result, v) ∧ q.Outcome v result := by
  by_cases same : value.shape = type.shape
  · have shaped : q.Clear v 5 := known.next fun e fault => by cases fault; simp_all
    rw [if_neg (not_not_intro same), FieldValue.resolve_eq]
    by_cases counted : q.indexes.length = value.shape.arity
    · have counts : q.Clear v 6 := shaped.next fun e fault => by cases fault; simp_all
      rw [if_neg (not_not_intro counted)]
      cases found : value.at? q.indexes with
      | none => exact ⟨.error _, rfl, 6, .outOfRange present counted found, counts⟩
      | some h =>
        have ranges : q.Clear v 7 := counts.next fun e fault => by cases fault; simp_all
        exact ⟨_, rfl, content_outcome declared blob present same found ranges⟩
    · rw [if_pos counted]
      exact ⟨.error _, rfl, 5, .miscounted present counted, shaped⟩
  · rw [if_pos same]
    exact ⟨.error _, rfl, 4, .otherShape declared present same, known⟩

/-- The read leaves all as it is, and its answer is what the query leads to or the first fault. -/
theorem read_outcome (q : FieldQuery) (v : Vault) :
    ∃ result, v.run (openFieldRead q.record q.version q.field q.indexes).run = (result, v) ∧
      q.Outcome v result := by
  unfold openFieldRead
  rw [Vault.run_bind, Vault.run_fieldType]
  cases declared : v.repository.fieldType q.field with
  | error e => exact ⟨.error e, rfl, 0, .schemaFails declared, .zero⟩
  | ok type? =>
    cases type? with
    | none => exact ⟨.error _, rfl, 0, .typeMissing declared, .zero⟩
    | some type =>
      have known : q.Clear v 1 := Clear.zero.next fun e fault => by cases fault <;> simp_all
      by_cases blob : type.kind = .blob
      · have blobs : q.Clear v 2 := known.next fun e fault => by cases fault; simp_all
        simp only [FieldType.holdsBlobs, blob, decide_true, Bool.not_true, Bool.false_eq_true,
          if_false]
        rw [Vault.run_bind, Vault.run_readField]
        cases present : v.repository.readField q.record q.version q.field with
        | error e => exact ⟨.error e, rfl, 2, .recordFails present, blobs⟩
        | ok read =>
          cases read with
          | recordMissing => exact ⟨.error _, rfl, 2, .recordMissing present, blobs⟩
          | fieldAbsent =>
            have there : q.Clear v 3 := blobs.next fun e fault => by cases fault <;> simp_all
            exact ⟨.error _, rfl, 3, .fieldAbsent present, there⟩
          | value value =>
            have there : q.Clear v 3 := blobs.next fun e fault => by cases fault <;> simp_all
            have holds : q.Clear v 4 := there.next fun e fault => by cases fault; simp_all
            exact value_outcome declared blob present holds
      · simp only [FieldType.holdsBlobs, blob, decide_false, Bool.not_false, if_true]
        exact ⟨.error _, rfl, 1, .otherKind declared blob, known⟩

end

end FieldQuery

end BlobLifecycle
