import BlobLifecycle.Proofs.Traversal
import Mathlib.Data.List.Basic

/-! Records with versions, and the ways to change one. A change frees the handles that its
record holds no longer, and none of those it still holds, where every stored handle stays
within one field. -/
namespace BlobLifecycle

abbrev Fields (kind : FieldTypeId → Prop) := {f // kind f} → Option FieldValue

structure RecordValues (scopes : FieldTypeId → Scope) where
  current : Fields fun f => scopes f = .nonVersioned
  /-- The fields with versions in each live version, newest first. -/
  versions : List (Fields fun f => scopes f ≠ .nonVersioned)

inductive Edit where
  /-- Sets or removes values without versions. -/
  | set (changes : List FieldChange)
  /-- A new version, in which the other fields are as in the latest. -/
  | append (changes : List FieldChange)
  /-- Overwrites a live version. -/
  | overwrite (n : Nat) (changes : List FieldChange)
  /-- Deletes a live version with these values, where there are these others. -/
  | dropVersion (n : Nat) (values others : List FieldValue)
  | dropRecord (values : List FieldValue)

variable {scopes : FieldTypeId → Scope} {kind : FieldTypeId → Prop}

def Fields.assign (fields : Fields kind) (changes : List FieldChange) : Fields kind := fun f =>
  match changes.find? (·.field = f.1) with
  | some c => c.after
  | none => fields f

namespace RecordValues

def none : RecordValues scopes := ⟨fun _ => .none, []⟩

def values (r : RecordValues scopes) (f : FieldTypeId) : List FieldValue :=
  if plain : scopes f = .nonVersioned then (r.current ⟨f, plain⟩).toList
  else r.versions.filterMap (· ⟨f, plain⟩)

def Holds (r : RecordValues scopes) (f : FieldTypeId) (h : Handle) : Prop := Hold (r.values f) h

def latest (r : RecordValues scopes) : Fields fun f => scopes f ≠ .nonVersioned :=
  r.versions.headD fun _ => .none

/-- The value that is replaced where this version is. -/
def before (r : RecordValues scopes) (version : Fields fun f => scopes f ≠ .nonVersioned)
    (f : FieldTypeId) : Option FieldValue :=
  if plain : scopes f = .nonVersioned then r.current ⟨f, plain⟩ else version ⟨f, plain⟩

def without (r : RecordValues scopes) (n : Nat) : RecordValues scopes :=
  { r with versions := r.versions.eraseIdx n }

/-- The changes are told truly, each field at most once. -/
structure Told (r : RecordValues scopes) (version : Fields fun f => scopes f ≠ .nonVersioned)
    (changes : List FieldChange) : Prop where
  distinct : (changes.map (·.field)).Nodup
  scope : ∀ c ∈ changes, c.scope = scopes c.field
  before : ∀ c ∈ changes, c.before = r.before version c.field
  alone : ∀ c ∈ changes, c.scope = .nonVersioned → c.retained = []

end RecordValues

namespace Edit

def changes : Edit → List FieldChange
  | set changes | append changes | overwrite _ changes => changes
  | dropVersion .. | dropRecord _ => []

def plan (record : RecordId) : Edit → BlobPlan
  | set changes | append changes | overwrite _ changes => .ofChanges record changes
  | dropVersion _ values others => ⟨[], freedByVersion values others⟩
  | dropRecord values => ⟨[], freedByRecord values⟩

def apply (r : RecordValues scopes) : Edit → RecordValues scopes
  | set changes => { r with current := Fields.assign r.current changes }
  | append changes =>
    ⟨Fields.assign r.current changes, Fields.assign r.latest changes :: r.versions⟩
  | overwrite n changes =>
    { r with versions := r.versions.modify n (Fields.assign · changes) }
  | dropVersion n _ _ => r.without n
  | dropRecord _ => .none

inductive Fits (r : RecordValues scopes) : Edit → Prop
  | set {changes : List FieldChange} (told : r.Told r.latest changes)
      (plain : ∀ c ∈ changes, c.scope = .nonVersioned) : Fits r (.set changes)
  | append {changes : List FieldChange} (told : r.Told r.latest changes)
      (added : ∀ c ∈ changes, c.mutation = .newVersion) : Fits r (.append changes)
  | overwrite {n : Nat} {version : Fields fun f => scopes f ≠ .nonVersioned}
      {changes : List FieldChange} (live : r.versions[n]? = some version)
      (told : r.Told version changes)
      (inPlace : ∀ c ∈ changes, c.scope = .versionedMutable ∧ c.mutation = .inPlace)
      (retained : ∀ c ∈ changes, ∀ v, v ∈ c.retained ↔ v ∈ (r.without n).values c.field) :
      Fits r (.overwrite n changes)
  | dropVersion {n : Nat} {version : Fields fun f => scopes f ≠ .nonVersioned}
      {values others : List FieldValue} (live : r.versions[n]? = some version)
      (listed : ∀ v, v ∈ values ↔ ∃ f, version f = some v)
      (remaining : ∀ v ∈ others, ∃ f, v ∈ (r.without n).values f)
      (complete : ∀ f, scopes f ≠ .nonVersioned → ∀ v ∈ (r.without n).values f, v ∈ others) :
      Fits r (.dropVersion n values others)
  | dropRecord {values : List FieldValue} (listed : ∀ v, v ∈ values ↔ ∃ f, v ∈ r.values f) :
      Fits r (.dropRecord values)

end Edit

namespace Fields

variable {fields : Fields kind} {changes : List FieldChange}

theorem assign_changed {c : FieldChange} (distinct : (changes.map (·.field)).Nodup)
    (listed : c ∈ changes) (here : kind c.field) :
    assign fields changes ⟨c.field, here⟩ = c.after := by
  have found : changes.find? (·.field = c.field) = some c := by
    induction changes with
    | nil => cases listed
    | cons c' rest ih =>
      rw [List.map_cons, List.nodup_cons] at distinct
      rcases List.mem_cons.1 listed with rfl | listed
      · simp
      · have apart : c'.field ≠ c.field := fun same =>
          distinct.1 (List.mem_map.2 ⟨c, listed, same.symm⟩)
        rw [List.find?_cons_of_neg (by simpa using apart)]
        exact ih distinct.2 listed
  simp only [assign, found]

theorem assign_other {f : {f // kind f}} (apart : ∀ c ∈ changes, c.field ≠ f.1) :
    assign fields changes f = fields f := by
  have absent : changes.find? (·.field = f.1) = none := by simpa using apart
  simp only [assign, absent]

end Fields

section

variable {α : Type} {l : List α} {n : Nat} {a : α} {P : α → Prop}

/-- The elements of a list are one of them and the others. -/
theorem exists_mem_modify (present : l[n]? = some a) (f : α → α) :
    (∃ x ∈ l.modify n f, P x) ↔ P (f a) ∨ ∃ x ∈ l.eraseIdx n, P x := by
  induction l generalizing n with
  | nil => cases present
  | cons b rest ih =>
    cases n with
    | zero =>
      cases present
      simp
    | succ n =>
      simp [ih present, or_left_comm]

theorem exists_mem_eraseIdx (present : l[n]? = some a) :
    (∃ x ∈ l, P x) ↔ P a ∨ ∃ x ∈ l.eraseIdx n, P x := by
  have same : (∃ x ∈ l.modify n id, P x) ↔ P a ∨ _ := exists_mem_modify present id
  rwa [List.modify_id] at same

end

namespace RecordValues

variable {r r' : RecordValues scopes} {f : FieldTypeId} {h : Handle}

theorem holds_plain (plain : scopes f = .nonVersioned) :
    r.Holds f h ↔ Hold (r.current ⟨f, plain⟩).toList h := by
  simp only [Holds, values, plain, dite_true]

theorem holds_versioned (versioned : scopes f ≠ .nonVersioned) :
    r.Holds f h ↔ ∃ version ∈ r.versions, Hold (version ⟨f, versioned⟩).toList h := by
  simp only [Holds, values, versioned, dite_false, hold_filterMap]

theorem before_plain {version : Fields fun f => scopes f ≠ .nonVersioned}
    (plain : scopes f = .nonVersioned) : r.before version f = r.current ⟨f, plain⟩ := by
  simp [before, plain]

theorem before_versioned {version : Fields fun f => scopes f ≠ .nonVersioned}
    (versioned : scopes f ≠ .nonVersioned) : r.before version f = version ⟨f, versioned⟩ := by
  simp [before, versioned]

/-- What a change does to its field: the new values are the changed one and former ones, and
handles go away exactly as far as they are freed. -/
structure Revised (r r' : RecordValues scopes) (c : FieldChange) : Prop where
  replaced : ∀ h, Hold c.before.toList h → r.Holds c.field h
  gained : ∀ h, r'.Holds c.field h → r.Holds c.field h ∨ Hold c.after.toList h
  lost : ∀ h, r.Holds c.field h → r'.Holds c.field h ∨ h ∈ c.freed
  freed : ∀ h ∈ c.freed, r.Holds c.field h ∧ ¬r'.Holds c.field h

structure Balance (record : RecordId) (r : RecordValues scopes) (plan : BlobPlan)
    (r' : RecordValues scopes) : Prop where
  gained : ∀ f h, h.tier.isStored = true → r'.Holds f h →
    r.Holds f h ∨ ⟨h, record, f⟩ ∈ plan.toReserve
  lost : ∀ f h, h.tier.isStored = true → r.Holds f h → r'.Holds f h ∨ h ∈ plan.toDelete
  freed : ∀ h ∈ plan.toDelete, h.tier.isStored = true →
    (∃ f, r.Holds f h) ∧ ∀ f, r'.Holds f h → ⟨h, record, f⟩ ∈ plan.toReserve

/-- Stored handles stay within one field. -/
def Single (r : RecordValues scopes) : Prop :=
  ∀ f f' h, h.tier.isStored = true → r.Holds f h → r.Holds f' h → f = f'

variable {c : FieldChange} {changes : List FieldChange} {record : RecordId}

/-- A replaced value beside handles that stay. -/
theorem Revised.of_replaced (stay : Handle → Prop)
    (old : ∀ h, r.Holds c.field h ↔ Hold c.before.toList h ∨ stay h)
    (new : ∀ h, r'.Holds c.field h ↔ Hold c.after.toList h ∨ stay h)
    (freed : ∀ h, h ∈ c.freed ↔ Hold c.before.toList h ∧ ¬Hold c.after.toList h ∧
      ¬stay h) : Revised r r' c where
  replaced := fun _ member => (old _).2 (.inl member)
  gained := fun _ held => ((new _).1 held).elim .inr fun stays => .inl ((old _).2 (.inr stays))
  lost := by
    intro h held
    rw [new, freed]
    by_cases stays : stay h
    · exact .inl (.inr stays)
    · by_cases kept : Hold c.after.toList h
      · exact .inl (.inl kept)
      · exact .inr ⟨((old h).1 held).resolve_right stays, kept, stays⟩
  freed := by
    intro h free
    obtain ⟨member, dropped, leaves⟩ := (freed h).1 free
    rw [old, new]
    exact ⟨.inl member, fun held => held.elim dropped leaves⟩

/-- A value is added to those that stay. -/
theorem Revised.of_added (replaced : ∀ h, Hold c.before.toList h → r.Holds c.field h)
    (new : ∀ h, r'.Holds c.field h ↔ Hold c.after.toList h ∨ r.Holds c.field h)
    (free : c.scope.replacesValue c.mutation = false) : Revised r r' c where
  replaced := replaced
  gained := fun _ held => ((new _).1 held).symm
  lost := fun _ held => .inl ((new _).2 (.inr held))
  freed := fun _ freed => nomatch free.symm.trans (FieldChange.mem_freed.1 freed).1

/-- Where every change does so and no other field is touched, the plan takes account of all. -/
theorem balance_of_revised (single : r.Single) (revised : ∀ c ∈ changes, Revised r r' c)
    (others : ∀ f, (∀ c ∈ changes, c.field ≠ f) → ∀ h, r'.Holds f h ↔ r.Holds f h) :
    Balance record r (.ofChanges record changes) r' := by
  have gained (f : FieldTypeId) (h : Handle) (stored : h.tier.isStored = true)
      (held : r'.Holds f h) :
      r.Holds f h ∨ ⟨h, record, f⟩ ∈ (BlobPlan.ofChanges record changes).toReserve := by
    by_cases changed : ∃ c ∈ changes, c.field = f
    · obtain ⟨c, listed, rfl⟩ := changed
      rcases (revised c listed).gained h held with old | new
      · exact .inl old
      · by_cases former : Hold c.before.toList h
        · exact .inl ((revised c listed).replaced h former)
        · exact .inr (BlobPlan.mem_toReserve.2
            ⟨c, listed, FieldChange.mem_introduced.2 ⟨new, stored, former⟩, rfl⟩)
    · exact .inl ((others f (by simpa using changed) h).1 held)
  refine ⟨gained, ?_, ?_⟩
  · intro f h _ held
    by_cases changed : ∃ c ∈ changes, c.field = f
    · obtain ⟨c, listed, rfl⟩ := changed
      exact ((revised c listed).lost h held).imp id fun freed =>
        BlobPlan.mem_toDelete.2 ⟨c, listed, freed⟩
    · exact .inl ((others f (by simpa using changed) h).2 held)
  · intro h deleted stored
    obtain ⟨c, listed, freed⟩ := BlobPlan.mem_toDelete.1 deleted
    obtain ⟨held, dropped⟩ := (revised c listed).freed h freed
    refine ⟨⟨c.field, held⟩, fun f held' => (gained f h stored held').resolve_left fun old => ?_⟩
    exact dropped (single _ _ h stored old held ▸ held')

variable {version : Fields fun f => scopes f ≠ .nonVersioned}

theorem Told.revised_plain (told : r.Told version changes) (listed : c ∈ changes)
    (plain : scopes c.field = .nonVersioned)
    (current : r'.current = Fields.assign r.current changes) : Revised r r' c := by
  have scope := (told.scope c listed).trans plain
  refine .of_replaced (fun _ => False) (fun h => ?_) (fun h => ?_) fun h => ?_
  · rw [holds_plain plain, told.before c listed, before_plain plain, or_false]
  · rw [holds_plain plain, current, Fields.assign_changed told.distinct listed, or_false]
  · simp [FieldChange.mem_freed, scope, Scope.replacesValue, told.alone c listed scope]

theorem holds_assign_other (plain : scopes f = .nonVersioned)
    (others : ∀ c ∈ changes, c.field ≠ f) (versions) :
    Holds (⟨Fields.assign r.current changes, versions⟩ : RecordValues scopes) f h ↔
      r.Holds f h := by
  rw [holds_plain plain, holds_plain plain]
  dsimp only
  rw [Fields.assign_other others]

/-- The latest version holds nothing where there is none. -/
theorem holds_latest (versioned : scopes f ≠ .nonVersioned)
    (member : Hold (r.latest ⟨f, versioned⟩).toList h) : r.Holds f h := by
  rw [holds_versioned versioned]
  unfold latest at member
  cases live : r.versions with
  | nil =>
    rw [live] at member
    exact (hold_nil member).elim
  | cons version rest =>
    rw [live] at member
    exact ⟨version, List.mem_cons_self, member⟩

theorem holds_append (versioned : scopes f ≠ .nonVersioned) (current) :
    Holds (⟨current, version :: r.versions⟩ : RecordValues scopes) f h ↔
      Hold (version ⟨f, versioned⟩).toList h ∨ r.Holds f h := by
  rw [holds_versioned versioned, holds_versioned versioned]
  simp

theorem Told.revised_append (told : r.Told r.latest changes) (listed : c ∈ changes)
    (versioned : scopes c.field ≠ .nonVersioned) (added : c.mutation = .newVersion) (current) :
    Revised r ⟨current, Fields.assign r.latest changes :: r.versions⟩ c := by
  refine .of_added (fun h member => ?_) (fun h => ?_) ?_
  · rw [told.before c listed, before_versioned versioned] at member
    exact holds_latest versioned member
  · rw [holds_append versioned, Fields.assign_changed told.distinct listed]
  · rw [← told.scope c listed] at versioned
    cases scope : c.scope with
    | nonVersioned => exact (versioned scope).elim
    | _ => rw [added]; rfl

variable {n : Nat}

theorem holds_live (live : r.versions[n]? = some version) (versioned : scopes f ≠ .nonVersioned) :
    r.Holds f h ↔ Hold (version ⟨f, versioned⟩).toList h ∨ (r.without n).Holds f h := by
  rw [holds_versioned versioned, holds_versioned versioned]
  exact exists_mem_eraseIdx live

theorem holds_modify (live : r.versions[n]? = some version) (versioned : scopes f ≠ .nonVersioned)
    (edit : (Fields fun f => scopes f ≠ .nonVersioned) → Fields fun f => scopes f ≠ .nonVersioned) :
    Holds { r with versions := r.versions.modify n edit } f h ↔
      Hold (edit version ⟨f, versioned⟩).toList h ∨ (r.without n).Holds f h := by
  rw [holds_versioned versioned, holds_versioned versioned]
  exact exists_mem_modify live edit

theorem holds_without (held : (r.without n).Holds f h) : r.Holds f h := by
  by_cases plain : scopes f = .nonVersioned
  · rw [holds_plain plain] at held ⊢
    exact held
  · rw [holds_versioned plain] at held ⊢
    obtain ⟨version, live, member⟩ := held
    exact ⟨version, List.mem_of_mem_eraseIdx live, member⟩

theorem Told.revised_overwrite (told : r.Told version changes) (listed : c ∈ changes)
    (live : r.versions[n]? = some version)
    (inPlace : c.scope = .versionedMutable ∧ c.mutation = .inPlace)
    (retained : ∀ v, v ∈ c.retained ↔ v ∈ (r.without n).values c.field) :
    Revised r { r with versions := r.versions.modify n (Fields.assign · changes) } c := by
  have versioned : scopes c.field ≠ .nonVersioned := by
    rw [← told.scope c listed, inPlace.1]
    nofun
  refine .of_replaced ((r.without n).Holds c.field) (fun h => ?_) (fun h => ?_) fun h => ?_
  · rw [holds_live live versioned, told.before c listed, before_versioned versioned]
  · rw [holds_modify live versioned, Fields.assign_changed told.distinct listed]
  · simp [FieldChange.mem_freed, inPlace, Scope.replacesValue, hold_congr retained, Holds]

theorem holds_none : ¬(none : RecordValues scopes).Holds f h := by
  by_cases plain : scopes f = .nonVersioned
  · rw [holds_plain plain]
    exact hold_nil
  · rw [holds_versioned plain]
    simp [none]

/-- A version that is deleted frees what no other one holds. -/
theorem balance_dropVersion {values others : List FieldValue} (single : r.Single)
    (live : r.versions[n]? = some version) (listed : ∀ v, v ∈ values ↔ ∃ f, version f = some v)
    (remaining : ∀ v ∈ others, ∃ f, v ∈ (r.without n).values f)
    (complete : ∀ f, scopes f ≠ .nonVersioned → ∀ v ∈ (r.without n).values f, v ∈ others) :
    Balance record r ⟨[], freedByVersion values others⟩ (r.without n) where
  gained := fun _ _ _ held => .inl (holds_without held)
  lost := by
    intro f h stored held
    by_cases plain : scopes f = .nonVersioned
    · rw [holds_plain plain] at held
      exact .inl ((holds_plain plain).2 held)
    · refine or_iff_not_imp_left.2 fun dropped => ?_
      have member := ((holds_live live plain).1 held).resolve_right dropped
      obtain ⟨v, there, member⟩ := hold_toList.1 member
      refine HandleSet.mem_without.2 ⟨?_, fun other => ?_⟩
      · exact HandleSet.mem_ofValues.2 ⟨v, (listed v).2 ⟨_, there⟩, member⟩
      · obtain ⟨v', other, member'⟩ := HandleSet.mem_ofValues.1 other
        obtain ⟨f', there'⟩ := remaining v' other
        have held' : (r.without n).Holds f' h := ⟨v', there', member'⟩
        exact dropped (single f f' h stored held (holds_without held') ▸ held')
  freed := by
    intro h freed stored
    obtain ⟨member, apart⟩ := HandleSet.mem_without.1 freed
    obtain ⟨v, there, member⟩ := HandleSet.mem_ofValues.1 member
    obtain ⟨⟨f, versioned⟩, there⟩ := (listed v).1 there
    have held : r.Holds f h :=
      (holds_live live versioned).2 (.inl (hold_toList.2 ⟨v, there, member⟩))
    refine ⟨⟨f, held⟩, fun f' held' => ?_⟩
    obtain rfl := single f f' h stored held (holds_without held')
    obtain ⟨v', there', member'⟩ := held'
    exact (apart (HandleSet.mem_ofValues.2 ⟨v', complete f versioned v' there', member'⟩)).elim

theorem balance_dropRecord {values : List FieldValue}
    (listed : ∀ v, v ∈ values ↔ ∃ f, v ∈ r.values f) :
    Balance record r ⟨[], freedByRecord values⟩ none where
  gained := fun _ _ _ held => (holds_none held).elim
  lost := by
    rintro f h _ ⟨v, there, member⟩
    exact .inr (HandleSet.mem_ofValues.2 ⟨v, (listed v).2 ⟨f, there⟩, member⟩)
  freed := by
    intro h freed _
    obtain ⟨v, there, member⟩ := HandleSet.mem_ofValues.1 freed
    obtain ⟨f, there⟩ := (listed v).1 there
    exact ⟨⟨f, v, there, member⟩, fun _ held => (holds_none held).elim⟩

end RecordValues

open RecordValues

variable {r : RecordValues scopes}

/-- The plan of an edit takes account of all that it changes. -/
theorem Edit.Fits.balance {e : Edit} (fits : e.Fits r) (single : r.Single) (record : RecordId) :
    Balance record r (e.plan record) (e.apply r) := by
  cases fits with
  | set told plain =>
    refine balance_of_revised single (fun c listed => ?_) fun f others h => ?_
    · exact told.revised_plain listed ((told.scope c listed).symm.trans (plain c listed)) rfl
    · by_cases plain : scopes f = .nonVersioned
      · exact holds_assign_other plain others _
      · rw [holds_versioned plain, holds_versioned plain, apply]
  | append told added =>
    refine balance_of_revised single (fun c listed => ?_) fun f others h => ?_
    · by_cases plain : scopes c.field = .nonVersioned
      · exact told.revised_plain listed plain rfl
      · exact told.revised_append listed plain (added c listed) _
    · by_cases plain : scopes f = .nonVersioned
      · exact holds_assign_other plain others _
      · rw [apply, holds_append plain, Fields.assign_other others]
        exact ⟨fun held => held.elim (holds_latest plain) id, .inr⟩
  | overwrite live told inPlace retained =>
    refine balance_of_revised single (fun c listed => ?_) fun f others h => ?_
    · exact told.revised_overwrite listed live (inPlace c listed) (retained c listed)
    · by_cases plain : scopes f = .nonVersioned
      · rw [holds_plain plain, holds_plain plain, apply]
      · rw [apply, holds_modify live plain, Fields.assign_other others, ← holds_live live plain]
  | dropVersion live listed remaining complete =>
    exact balance_dropVersion single live listed remaining complete
  | dropRecord listed => exact balance_dropRecord listed

end BlobLifecycle
