import BlobLifecycle.Proofs.Calls
import Mathlib.Data.List.Basic
import Mathlib.Data.List.Induction

/-! A stored handle is for one field of one record, once: whoever was granted it first keeps
it from all others, and after its entry is gone nobody is granted it again. -/
namespace BlobLifecycle

namespace CallState

variable {start d d' : CallState} {calls : List Call} {locator : Locator} {holder : RecordField}

def Granted (start : CallState) (calls : List Call) (r : Reference) : Prop :=
  ∃ before references after, calls = before ++ .reserve references :: after ∧
    (start.after before).result (BlobLifecycle.reserve references).run = .ok () ∧ r ∈ references

/-- The locator was entered, and nobody but the holder can have its entry. -/
def Belongs (d : CallState) (locator : Locator) (holder : RecordField) : Prop :=
  (∃ tier, Entered d.effects tier locator) ∧ ∀ row, d.vault.row locator = some row →
    row.HeldFor holder ∨ row.condemnedAt ≠ none

/-- Condemned rows are granted to nobody, and held ones to their holder. -/
theorem Belongs.grants {row : LedgerRow} {holder' : RecordField} (belongs : d.Belongs locator holder)
    (present : d.vault.row locator = some row) (grants : row.Grants holder') :
    holder' = holder ∧ row.HeldFor holder := by
  have uncondemned : row.condemnedAt = none := grants.elim (·.2) (·.2.2)
  have held := (belongs.2 row present).resolve_right (not_not_intro uncondemned)
  rcases grants with free | held'
  · exact (free.unheld held).elim
  · exact ⟨held'.unique held, held⟩

theorem Belongs.change {call : Call} {effects : List Effect} {v : Vault}
    (belongs : d.Belongs locator holder) (change : Change locator call d effects v) (row : LedgerRow)
    (present : v.row locator = some row) : row.HeldFor holder ∨ row.condemnedAt ≠ none := by
  cases change with
  | kept same => exact belongs.2 row (same ▸ present)
  | written running stored here same => exact belongs.2 row (same ▸ present)
  | claimed before grants after =>
    cases Option.some.inj (after.symm.trans present)
    obtain ⟨rfl, held⟩ := belongs.grants before grants
    exact .inl grants.held
  | released before held gone => exact nomatch gone.symm.trans present
  | discarded called same => exact belongs.2 row (same ▸ present)
  | swept called fate =>
    cases fate with
    | kept same => exact belongs.2 row (same ▸ present)
    | marked before after =>
      cases Option.some.inj (after.symm.trans present)
      exact .inr (by simp)
    | released before held gone => exact nomatch gone.symm.trans present
    | reaped before named gone => exact nomatch gone.symm.trans present

theorem Belongs.perform (sound : Sound d) (belongs : d.Belongs locator holder) (call : Call) :
    (d.perform call).Belongs locator holder := by
  obtain ⟨tier, entered⟩ := belongs.1
  rcases perform_kinds sound call with ⟨n, s, begins⟩ | proceeds
  · refine ⟨⟨tier, begins.entered.2 (.inr entered)⟩, ?_⟩
    rw [begins.row_entered sound entered]
    exact belongs.2
  · exact ⟨⟨tier, proceeds.entered.2 entered⟩, belongs.change (proceeds.changes locator)⟩

theorem granted_append {call : Call} {r : Reference} : Granted start (calls ++ [call]) r ↔
    Granted start calls r ∨ ∃ references, call = .reserve references ∧
      (start.after calls).result (BlobLifecycle.reserve references).run = .ok () ∧
      r ∈ references := by
  constructor
  · rintro ⟨before, references, after, split, done, member⟩
    rcases List.eq_nil_or_concat' after with rfl | ⟨after, last, rfl⟩
    · obtain ⟨rfl, same⟩ := List.append_inj' split rfl
      cases same
      exact .inr ⟨references, rfl, done, member⟩
    · rw [← List.cons_append, ← List.append_assoc] at split
      obtain ⟨rfl, -⟩ := List.append_inj' split rfl
      exact .inl ⟨before, references, after, rfl, done, member⟩
  · rintro (⟨before, references, after, rfl, done, member⟩ | ⟨references, rfl, done, member⟩)
    · exact ⟨before, references, after ++ [call], by simp, done, member⟩
    · exact ⟨calls, references, [], rfl, done, member⟩

/-- What a reference was granted belongs to its record and field from then on. -/
theorem Granted.belongs {r : Reference} (initial : start.Initial) (granted : Granted start calls r)
    (stored : r.handle.tier.isStored = true) :
    (start.after calls).Belongs r.handle.locator r.holder := by
  induction calls using List.reverseRecOn with
  | nil =>
    obtain ⟨before, references, after, split, -⟩ := granted
    simp at split
  | append_singleton calls call ih =>
    have sound := initial.sound.after calls
    rw [after_append]
    rcases granted_append.1 granted with before | ⟨references, rfl, done, member⟩
    · exact (ih before).perform sound call
    · obtain ⟨row, present, grants, after⟩ :=
        (sound.reserves_of_ok done).granted r (List.mem_filter.2 ⟨member, stored⟩)
      obtain ⟨tier, entered, -⟩ := sound.rows _ row present
      refine ⟨⟨tier, entered_after sound entered [.reserve references]⟩, ?_⟩
      intro row' present'
      cases Option.some.inj (after.symm.trans present')
      exact .inl grants.held

theorem Granted.unique {r r' : Reference} (initial : start.Initial)
    (granted : Granted start calls r) (granted' : Granted start calls r')
    (stored : r.handle.tier.isStored = true) (stored' : r'.handle.tier.isStored = true)
    (same : r.handle.locator = r'.handle.locator) : r.holder = r'.holder := by
  induction calls using List.reverseRecOn with
  | nil =>
    obtain ⟨before, references, after, split, -⟩ := granted
    simp at split
  | append_singleton calls call ih =>
    have sound := initial.sound.after calls
    have later {r r' : Reference} (before : Granted start calls r) {references : List Reference}
        (done : (start.after calls).result (BlobLifecycle.reserve references).run = .ok ())
        (member : r' ∈ references) (stored : r.handle.tier.isStored = true)
        (stored' : r'.handle.tier.isStored = true) (same : r.handle.locator = r'.handle.locator) :
        r.holder = r'.holder := by
      obtain ⟨row, present, grants, -⟩ :=
        (sound.reserves_of_ok done).granted r' (List.mem_filter.2 ⟨member, stored'⟩)
      have belongs := before.belongs initial stored
      rw [same] at belongs
      exact (belongs.grants present grants).1.symm
    rcases granted_append.1 granted with before | ⟨references, rfl, done, member⟩
    · rcases granted_append.1 granted' with before' | ⟨references, rfl, done, member⟩
      · exact ih before before'
      · exact later before done member stored stored' same
    · rcases granted_append.1 granted' with before' | ⟨references', again, done', member'⟩
      · exact (later before' done member stored' stored same.symm).symm
      · cases again
        exact (sound.reserves_of_ok done).holder_eq (List.mem_filter.2 ⟨member, stored⟩)
          (List.mem_filter.2 ⟨member', stored'⟩) same

/-- A reservation of something spent fails as an invalid record. -/
theorem Spent.refused (sound : Sound d) {references : List Reference} {r : Reference}
    (spent : d.Spent r.handle.locator) (member : r ∈ references)
    (stored : r.handle.tier.isStored = true) :
    ∃ refusal, d.result (BlobLifecycle.reserve references).run = .error (.invalidRecord refusal) := by
  rcases sound.reserves references with ⟨-, reserves⟩ | ⟨failed, -⟩
  · obtain ⟨row, present, -⟩ := reserves.granted r (List.mem_filter.2 ⟨member, stored⟩)
    exact nomatch spent.2.symm.trans present
  · exact failed

end CallState

theorem reserve_stored (references : List Reference) :
    reserve (storedReferences references) = reserve references := by
  simp [reserve, storedReferences]

theorem confirm_stored (references : List Reference) :
    confirm (storedReferences references) = confirm references := by
  simp [confirm, storedReferences]

structure SingleUse (start : CallState) (calls : List Call) : Prop where
  /-- Whoever is granted a locator names the same record and field for it. -/
  owner : ∀ r r', CallState.Granted start calls r → CallState.Granted start calls r' →
    r.handle.tier.isStored = true → r'.handle.tier.isStored = true →
    r.handle.locator = r'.handle.locator → r.holder = r'.holder
  /-- Once the entry of a locator is gone, every reservation that names it is refused. -/
  spent : ∀ early between late references rest locator,
    calls = early ++ (between ++ (late ++ .reserve references :: rest)) →
    (start.after early).vault.row locator ≠ none →
    (start.after (early ++ between)).vault.row locator = none →
    (∃ r ∈ references, r.handle.tier.isStored = true ∧ r.handle.locator = locator) →
    ∃ refusal, (start.after (early ++ (between ++ late))).result (reserve references).run =
      .error (.invalidRecord refusal)
  /-- Inline references make no difference. -/
  inline : ∀ references, reserve references = reserve (storedReferences references) ∧
    confirm references = confirm (storedReferences references)
  /-- Nothing but inline references succeeds, and leaves the ledger. -/
  allInline : ∀ d : CallState, ∀ references : List Reference, (∀ r ∈ references, r.handle.tier = .inline) →
    d.result (reserve references).run = .ok () ∧ d.result (confirm references).run = .ok () ∧
      (d.perform (.reserve references)).vault.ledger = d.vault.ledger ∧
      (d.perform (.confirm references)).vault.ledger = d.vault.ledger

/-- Every run of whole calls uses stored handles once. -/
theorem stored_handles_single_use {start : CallState} (initial : start.Initial) (calls : List Call) :
    SingleUse start calls where
  owner := fun _ _ granted granted' => granted.unique initial granted'
  spent := by
    rintro early between late references rest locator - present gone ⟨r, member, stored, rfl⟩
    have sound := initial.sound.after early
    obtain ⟨row, present⟩ := Option.ne_none_iff_exists'.1 present
    obtain ⟨tier, entered, -⟩ := sound.rows _ row present
    rw [CallState.after_append] at gone
    have spent : ((start.after early).after between).Spent r.handle.locator :=
      ⟨⟨tier, CallState.entered_after sound entered between⟩, gone⟩
    have still := spent.after (sound.after between) late
    rw [CallState.after_append, CallState.after_append]
    exact still.refused ((sound.after between).after late) member stored
  inline := fun references => ⟨(reserve_stored references).symm, (confirm_stored references).symm⟩
  allInline := by
    intro d references inlined
    have nothing : storedReferences references = [] := by
      refine List.filter_eq_nil_iff.2 fun r member => ?_
      rw [inlined r member]
      nofun
    have reserves := reserve_stored references
    have confirms := confirm_stored references
    rw [nothing] at reserves confirms
    simp only [CallState.perform, ← reserves, ← confirms]
    exact ⟨rfl, rfl, rfl, rfl⟩

namespace Sample

/-- A byte is written, reserved for a record and confirmed, and reserved once more. -/
def reuse : List Call :=
  [.openWrite 0 ⟨0, 200⟩ ⟨"", "", 1⟩, .write 0 [7], .finish 0, .reserve [reference],
    .confirm [reference], .reserve [reference]]

end Sample

/-- What was confirmed is refused when it is reserved again. -/
theorem confirmed_handle_refused :
    CallState.Granted (.numbered 1000000) Sample.reuse Sample.reference ∧ ∃ refusal,
      ((CallState.numbered 1000000).after (Sample.reuse.take 5)).result
        (reserve [Sample.reference]).run = .error (.invalidRecord refusal) :=
  ⟨⟨Sample.reuse.take 3, [Sample.reference], Sample.reuse.drop 4, rfl, rfl, List.mem_singleton_self _⟩,
    (stored_handles_single_use (CallState.numbered_initial (by decide)) Sample.reuse).spent
      (Sample.reuse.take 4) [.confirm [Sample.reference]] [] [Sample.reference] [] [0] rfl
      (Option.some_ne_none _) rfl ⟨Sample.reference, List.mem_singleton_self _, rfl, rfl⟩⟩

end BlobLifecycle
