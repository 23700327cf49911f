import BlobLifecycle.Toml.Document
import Mathlib.Data.List.Nodup

/-! Tables that documents give. Whatever a document does to its root table, no key is in it
twice. -/
namespace BlobLifecycle.Toml

namespace Table

def Distinct (t : Table) : Prop := (t.map (·.1)).Nodup

variable {t t' : Table} {change : Table → String → Option Table}

theorem keys_set (t : Table) (key : String) (value : Value) : (t.set key value).map (·.1) =
    if key ∈ t.map (·.1) then t.map (·.1) else t.map (·.1) ++ [key] := by
  induction t with
  | nil => rfl
  | cons entry rest ih =>
    obtain ⟨k, v⟩ := entry
    by_cases same : k = key
    · simp [set, same]
    · have apart : ¬key = k := fun same' => same same'.symm
      rw [set, if_neg same, List.map_cons, ih]
      by_cases later : key ∈ rest.map (·.1)
      · simp [later]
      · rw [if_neg later, if_neg (by simpa [apart] using later)]
        rfl

theorem Distinct.lookup_iff (distinct : t.Distinct) {key : String} {value : Value} :
    t.lookup key = some value ↔ (key, value) ∈ t := by
  rw [List.lookup_eq_some_iff]
  constructor
  · rintro ⟨before, later, rfl, -⟩
    simp
  · intro held
    obtain ⟨before, later, rfl⟩ := List.append_of_mem held
    refine ⟨before, later, rfl, fun entry earlier => ?_⟩
    unfold Distinct at distinct
    simp only [List.map_append, List.map_cons, List.nodup_append] at distinct
    simpa using fun same => distinct.2.2 _ (List.mem_map_of_mem earlier) _ (by simp) same.symm

theorem Distinct.set (distinct : t.Distinct) (key : String) (value : Value) :
    (t.set key value).Distinct := by
  unfold Distinct
  rw [keys_set]
  split
  · exact distinct
  · next new =>
    rw [← List.concat_eq_append]
    exact distinct.concat new

theorem Distinct.moveToEnd (distinct : t.Distinct) (key : String) (value : Value) :
    (t.moveToEnd key value).Distinct := by
  have others : ((t.filter (·.1 ≠ key)).map (·.1)).Nodup :=
    (List.filter_sublist.map _).nodup distinct
  unfold Distinct Table.moveToEnd
  rw [List.map_append, List.map_singleton, ← List.concat_eq_append]
  exact others.concat (by simp)

/-- Tables within a table are put back where they were found. -/
theorem Distinct.set_map (distinct : t.Distinct) {inner : Option Table} {key : String}
    {rebuilt : Table → Value} (changed : inner.map (fun i => t.set key (rebuilt i)) = some t') :
    t'.Distinct := by
  obtain ⟨i, -, rfl⟩ := Option.map_eq_some_iff.1 changed
  exact distinct.set key _

theorem Distinct.descend (distinct : t.Distinct)
    (keeps : ∀ key t', change t key = some t' → t'.Distinct) {path : List String}
    (changed : descend change t path = some t') : t'.Distinct := by
  unfold Table.descend at changed
  split at changed
  · cases changed
  · exact keeps _ _ changed
  · split at changed
    · exact distinct.set_map changed
    · cases changed
    · exact distinct.set_map changed
    · exact distinct.set_map changed
    · cases changed

theorem Distinct.insertDotted {edition : Edition} (distinct : t.Distinct) {path : List String}
    {value : Value} (changed : t.insertDotted edition path value = some t') : t'.Distinct := by
  unfold Table.insertDotted at changed
  split at changed
  · cases changed
  · split at changed
    · cases changed
    · cases changed
      exact distinct.set _ _
  · split at changed
    · exact distinct.set_map changed
    · exact distinct.set_map changed
    · split at changed
      · split at changed
        · cases changed
        · exact distinct.set_map changed
      · exact distinct.set_map changed
    · split at changed
      · cases changed
      · exact distinct.set_map changed
    · cases changed

theorem Distinct.openTable (distinct : t.Distinct) {path : List String}
    (opened : t.openTable path = some t') : t'.Distinct := by
  refine distinct.descend (fun key t' changed => ?_) opened
  split at changed
  · cases changed
    exact distinct.set _ _
  · cases changed
    exact distinct.moveToEnd _ _
  · cases changed

theorem Distinct.openElement (distinct : t.Distinct) {path : List String}
    (opened : t.openElement path = some t') : t'.Distinct := by
  refine distinct.descend (fun key t' changed => ?_) opened
  split at changed
  · cases changed
    exact distinct.set _ _
  · cases changed
    exact distinct.set _ _
  · cases changed

theorem Distinct.insertAt {edition : Edition} (distinct : t.Distinct) {opened key : List String}
    {value : Value} (changed : t.insertAt edition opened key value = some t') : t'.Distinct := by
  unfold Table.insertAt at changed
  split at changed
  · exact distinct.insertDotted changed
  · refine distinct.descend (fun key t' changed => ?_) changed
    split at changed
    · exact distinct.set_map changed
    · exact distinct.set_map changed
    · cases changed

end Table

theorem Builder.add_distinct {edition : Edition} {b b' : Builder} (distinct : b.root.Distinct)
    {statement : Statement} (added : b.add edition statement = some b') : b'.root.Distinct := by
  cases statement <;> obtain ⟨root, changed, rfl⟩ := Option.map_eq_some_iff.1 added
  · exact distinct.openTable changed
  · exact distinct.openElement changed
  · exact distinct.insertAt changed

theorem readLines_distinct {edition : Edition} {root : Table} (bound : Nat) :
    ∀ {b : Builder} {text : Text}, b.root.Distinct → readLines edition bound b text = some root →
      root.Distinct := by
  induction bound with
  | zero => intro b text _ result; cases result
  | succ bound ih =>
    intro b text distinct result
    unfold readLines at result
    split at result
    · cases result
      exact distinct
    · simp only [Option.bind_eq_bind, Option.bind_eq_some_iff] at result
      obtain ⟨⟨statement, rest⟩, -, b', added, after, -, result⟩ := result
      exact ih (Builder.add_distinct distinct added) result

theorem settleEntries_keys {edition : Edition} {entries settled : Table}
    (result : settleEntries? edition entries = some settled) :
    settled.map (·.1) = entries.map (·.1) := by
  induction entries generalizing settled with
  | nil => cases result; rfl
  | cons entry rest ih =>
    obtain ⟨key, value⟩ := entry
    simp only [settleEntries?, Option.bind_eq_bind, Option.bind_eq_some_iff] at result
    obtain ⟨value', -, rest', result, same⟩ := result
    cases same
    simp [ih result]

theorem Table.eq_datetime {edition : Edition} {t : Table} {value : Value}
    (found : t.datetime? edition = some (some value)) : ∃ s, value = .datetime s := by
  unfold Table.datetime? at found
  split at found
  · cases found
  · obtain ⟨s, -, same⟩ := Option.map_eq_some_iff.1 found
    cases same
    exact ⟨s, rfl⟩
  · cases found

/-- The root table of a document has no key twice. -/
theorem parse_distinct {edition : Edition} {document : String} {origin : Origin} {entries : Table}
    (parsed : parse? edition document = some (.table origin entries)) : entries.Distinct := by
  simp only [parse?, Option.bind_eq_bind, Option.bind_eq_some_iff] at parsed
  obtain ⟨root, read, settled⟩ := parsed
  have distinct : root.Distinct := readLines_distinct _ (by simp [Table.Distinct]) read
  simp only [Value.settle?, Option.bind_eq_bind, Option.bind_eq_some_iff] at settled
  obtain ⟨datetime, found, settled⟩ := settled
  cases datetime with
  | some value =>
    obtain ⟨s, rfl⟩ := Table.eq_datetime found
    cases settled
  | none =>
    simp only [Option.bind_eq_some_iff] at settled
    obtain ⟨settled', kept, same⟩ := settled
    cases same
    unfold Table.Distinct
    rw [settleEntries_keys kept]
    exact distinct

end BlobLifecycle.Toml
