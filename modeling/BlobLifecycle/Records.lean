import BlobLifecycle.Repository

/-! A repository held in memory: field types, and records whose fields have a value, or a
gap where one was deleted, for each version. -/
namespace BlobLifecycle

abbrev Versions := List (Option FieldValue)

structure Records where
  fieldTypes : List (FieldTypeId × FieldType)
  records : List (RecordId × List (FieldTypeId × Versions))

namespace Records

def empty : Records := ⟨[], []⟩

/-- Sets the value of a key in place or adds the key at the end. -/
def assign [DecidableEq κ] (key : κ) (value : α) : List (κ × α) → List (κ × α)
  | [] => [(key, value)]
  | (k, v) :: rest => if k = key then (k, value) :: rest else (k, v) :: assign key value rest

def define (r : Records) (t : FieldType) : Records :=
  { r with fieldTypes := assign t.id t r.fieldTypes }

def fields? (r : Records) (record : RecordId) : Option (List (FieldTypeId × Versions)) :=
  r.records.lookup record

def versions (r : Records) (record : RecordId) (field : FieldTypeId) : Versions :=
  (((r.fields? record).getD []).lookup field).getD []

def create (r : Records) (record : RecordId) : Records :=
  match r.fields? record with
  | some _ => r
  | none => { r with records := r.records ++ [(record, [])] }

def drop (r : Records) (record : RecordId) : Records :=
  { r with records := r.records.filter (·.1 ≠ record) }

def setVersions (r : Records) (record : RecordId) (field : FieldTypeId) (v : Versions) : Records :=
  { r with records := assign record (assign field v ((r.fields? record).getD [])) r.records }

/-- Replaces the value of a version, counted from one, or appends a version. -/
def put (r : Records) (record : RecordId) (field : FieldTypeId) (version : Option Nat)
    (value : Option FieldValue) : Records :=
  let old := r.versions record field
  r.setVersions record field (match version with
    | some n => old.set (n - 1) value
    | none => old ++ [value])

def live (v : Versions) : List FieldValue := v.filterMap id

/-- The value of a version, or the latest that is not deleted. -/
def valueAt? (v : Versions) : Option Nat → Option FieldValue
  | none => (live v).getLast?
  | some 0 => none
  | some (n + 1) => (v[n]?).join

def readField (r : Records) (record : RecordId) (version : Option Nat) (field : FieldTypeId) :
    FieldRead :=
  match r.fields? record with
  | none => .recordMissing
  | some _ =>
    match valueAt? (r.versions record field) version with
    | some v => .value v
    | none => .fieldAbsent

def repository (r : Records) : Repository where
  fieldType field := .ok (r.fieldTypes.lookup field)
  readField record version field := .ok (r.readField record version field)
  fieldHistory record field := .ok (live (r.versions record field))

end Records

end BlobLifecycle
