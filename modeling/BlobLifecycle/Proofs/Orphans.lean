import BlobLifecycle.Proofs.Calls
import Mathlib.Data.List.Basic
import Mathlib.Data.List.Induction

/-! Content without an entry. It was released for a record, or a sweep took the entry away
while the write was still open, and the write brought content later. -/
namespace BlobLifecycle

namespace CallState

variable {start d d' : CallState} {calls : List Call} {tier : Tier} {locator : Locator}

def Tracked (d : CallState) (tier : Tier) (locator : Locator) : Prop :=
  ∃ e, d.vault.ledger.get locator = .ok (some e) ∧ e.locator = locator ∧ e.tier = tier

/-- A confirmation, perhaps a late one, took the entry away for a record. -/
def Released (d : CallState) (locator : Locator) : Prop := ∃ holder, .released locator holder ∈ d.effects

/-- A sweep takes the entry of an open write away, and for no record. -/
structure Uproots (d : CallState) (call : Call) (locator : Locator) : Prop where
  sweeps : ∃ settings pages, call = .sweep settings pages
  writing : d.Writing locator
  present : d.vault.row locator ≠ none
  gone : (d.perform call).vault.row locator = none
  unreleased : ¬(d.perform call).Released locator

def Uprooted (start : CallState) (calls : List Call) (locator : Locator) : Prop :=
  ∃ before call after, calls = before ++ call :: after ∧ (start.after before).Uproots call locator

inductive Accounted (d : CallState) (locator : Locator) : Prop
  | entry (present : d.vault.row locator ≠ none)
  | released (told : d.Released locator)
  | empty (idle : ¬d.Writing locator) (nothing : ∀ tier, d.vault.object? tier locator = none)

structure Lost (d : CallState) (locator : Locator) : Prop where
  spent : d.Spent locator
  unreleased : ¬d.Released locator

theorem tracked_iff (sound : Sound d) (entered : Entered d.effects tier locator) :
    d.Tracked tier locator ↔ d.vault.row locator ≠ none := by
  unfold Tracked Ledger.get
  constructor
  · rintro ⟨e, read, -⟩ gone
    rw [show d.vault.ledger.find? locator = none from gone] at read
    cases read
  · intro present
    obtain ⟨row, present⟩ := Option.ne_none_iff_exists'.1 present
    obtain ⟨tier', entered', kind⟩ := sound.rows locator row present
    obtain ⟨e, here, sort, read⟩ := kind.entry locator
    refine ⟨e, ?_, here, sort.trans (sound.once _ _ _ entered' entered)⟩
    rw [show d.vault.ledger.find? locator = some row from present]
    simp only [LedgerRow.toEntry_eq_ok.2 ⟨here, read⟩, Except.map]

theorem effects_grow (sound : Sound d) (call : Call) : d.effects ⊆ (d.perform call).effects := by
  rcases perform_kinds sound call with ⟨n, s, begins⟩ | proceeds
  · obtain ⟨own, -, effects⟩ := begins.opens
    exact effects ▸ List.subset_append_right own d.effects
  · obtain ⟨own, -, effects⟩ := proceeds.stands
    exact effects ▸ List.subset_append_right own d.effects

theorem Released.perform (sound : Sound d) (released : d.Released locator) (call : Call) :
    (d.perform call).Released locator :=
  released.imp fun _ told => effects_grow sound call told

/-- Where an entry goes away, so does the content, unless the entry was released. -/
theorem Proceeds.emptied {call : Call} (proceeds : d.Proceeds call d') (sound : Sound d)
    (present : d.vault.row locator ≠ none) (gone : d'.vault.row locator = none) :
    d'.Released locator ∨ ((∃ settings pages, call = .sweep settings pages) ∧
      ∀ tier, d'.vault.object? tier locator = none) := by
  cases proceeds.changes locator with
  | kept same => exact (present (same.symm.trans gone)).elim
  | written running stored here same => exact (present (same.symm.trans gone)).elim
  | claimed before grants after => exact nomatch after.symm.trans gone
  | released before held gone told => exact .inl ⟨_, told⟩
  | discarded called same => exact (present (same.symm.trans gone)).elim
  | swept called fate =>
    cases fate with
    | kept same => exact (present (same.symm.trans gone)).elim
    | marked before after => exact nomatch after.symm.trans gone
    | released before held gone told => exact .inl ⟨_, told⟩
    | @reaped row tier before named gone deleted =>
      obtain ⟨tier', entered, kind⟩ := sound.rows locator row before
      obtain rfl : tier = tier' := Tier.name_injective (named.symm.trans kind.1)
      refine .inr ⟨⟨_, _, called⟩, fun other => ?_⟩
      -- Content of another tier would have been entered under that tier.
      by_contra holds
      have entered' := proceeds.entered.1 ((proceeds.keeps sound).contents other locator holds)
      exact holds (sound.once _ _ _ entered entered' ▸ deleted)

/-- What is accounted for stays so, unless a sweep uproots it. -/
theorem Accounted.perform (sound : Sound d) (entered : Entered d.effects tier locator)
    (accounted : d.Accounted locator) (call : Call) :
    (d.perform call).Accounted locator ∨ d.Uproots call locator := by
  by_cases gone : (d.perform call).vault.row locator = none
  case neg => exact .inl (.entry gone)
  by_cases released : (d.perform call).Released locator
  · exact .inl (.released released)
  rcases perform_kinds sound call with ⟨n, s, begins⟩ | proceeds
  · obtain ⟨own, opens, -⟩ := begins.opens
    rw [begins.row_entered sound entered] at gone
    cases accounted with
    | entry present => exact (present gone).elim
    | released told => exact (released (told.perform sound call)).elim
    | empty idle nothing =>
      refine .inl (.empty ?_ fun tier => (opens.objects tier locator).trans (nothing tier))
      rintro ⟨n', s', running, stored, here⟩
      rw [begins.sessions] at running
      split at running
      · cases running
        refine sound.unentered tier ?_
        rw [← opens.locator, here]
        exact entered
      · exact idle ⟨n', s', running, stored, here⟩
  · cases accounted with
    | entry present =>
      obtain ⟨sweeps, nothing⟩ := (proceeds.emptied sound present gone).resolve_left released
      by_cases writing : d.Writing locator
      · exact .inr ⟨sweeps, writing, present, gone, released⟩
      · exact .inl (.empty (fun after => writing (proceeds.writing after)) nothing)
    | released told => exact (released (told.perform sound call)).elim
    | empty idle nothing =>
      refine .inl (.empty (fun after => idle (proceeds.writing after)) fun tier => ?_)
      rcases (proceeds.changes locator).object tier with same | none | ⟨n, s, running, stored, here, -⟩
      · exact same.trans (nothing tier)
      · exact none
      · exact (idle ⟨n, s, running, stored, here⟩).elim

theorem Uprooted.append {call : Call} (uprooted : Uprooted start calls locator) :
    Uprooted start (calls ++ [call]) locator := by
  obtain ⟨before, call', after, rfl, uproots⟩ := uprooted
  exact ⟨before, call', after ++ [call], by simp, uproots⟩

/-- After a whole run, all that was entered is accounted for or was uprooted. -/
theorem accounted_or_uprooted (initial : start.Initial) (calls : List Call)
    (entered : Entered (start.after calls).effects tier locator) :
    (start.after calls).Accounted locator ∨ Uprooted start calls locator := by
  induction calls using List.reverseRecOn with
  | nil =>
    obtain ⟨time, member⟩ := entered
    rw [show (start.after []).effects = [] from initial.effects] at member
    cases member
  | append_singleton calls call ih =>
    have sound := initial.sound.after calls
    have step (before : Entered (start.after calls).effects tier locator) :
        ((start.after calls).perform call).Accounted locator ∨ Uprooted start (calls ++ [call]) locator := by
      rcases ih before with accounted | uprooted
      · exact (accounted.perform sound before call).imp id fun uproots => ⟨calls, call, [], rfl, uproots⟩
      · exact .inr uprooted.append
    rw [after_append] at entered ⊢
    rcases perform_kinds sound call with ⟨n, s, begins⟩ | proceeds
    · rcases begins.entered.1 entered with ⟨-, rfl⟩ | before
      · obtain ⟨own, opens, -⟩ := begins.opens
        refine .inl (.entry ?_)
        show ((start.after calls).perform call).vault.row s.locator ≠ none
        rw [opens.rows, if_pos rfl]
        exact Option.some_ne_none _
      · exact step before
    · exact step (proceeds.entered.1 entered)

theorem Lost.perform (sound : Sound d) (lost : d.Lost locator) (call : Call) :
    (d.perform call).Lost locator := by
  refine ⟨lost.spent.perform sound call, ?_⟩
  rintro ⟨holder, told⟩
  rcases perform_kinds sound call with ⟨n, s, begins⟩ | proceeds
  · obtain ⟨own, opens, effects⟩ := begins.opens
    rw [effects, opens.effects] at told
    exact lost.unreleased ⟨holder, by simpa using told⟩
  · obtain ⟨own, stands, effects⟩ := proceeds.stands
    rw [effects] at told
    rcases List.mem_append.1 told with new | old
    · obtain ⟨⟨row, present⟩, -⟩ := stands.released locator holder new
      exact nomatch lost.spent.2.symm.trans present
    · exact lost.unreleased ⟨holder, old⟩

theorem Lost.after (sound : Sound d) (lost : d.Lost locator) (calls : List Call) :
    (d.after calls).Lost locator := by
  induction calls generalizing d with
  | nil => exact lost
  | cons call rest ih => exact ih (sound.perform call) (lost.perform sound call)

/-- What was uprooted has no entry again and is released to nobody. -/
theorem Uprooted.lost (initial : start.Initial) (uprooted : Uprooted start calls locator) :
    (start.after calls).Lost locator := by
  obtain ⟨before, call, after, rfl, uproots⟩ := uprooted
  have sound := initial.sound.after before
  obtain ⟨row, present⟩ := Option.ne_none_iff_exists'.1 uproots.present
  obtain ⟨tier, entered, -⟩ := sound.rows locator row present
  have lost : ((start.after before).perform call).Lost locator :=
    ⟨⟨⟨tier, entered_after sound entered [call]⟩, uproots.gone⟩, uproots.unreleased⟩
  rw [after_append]
  exact lost.after (sound.perform call) after

end CallState

/-- After any run of whole calls, content has an entry or was released for a record, exactly
unless a sweep took its entry away while its write was open. -/
theorem content_tracked_unless_uprooted {start : CallState} (initial : start.Initial) (calls : List Call)
    {tier : Tier} {locator : Locator} (holds : (start.after calls).vault.Holds tier locator) :
    ((start.after calls).Tracked tier locator ∨ (start.after calls).Released locator) ↔
      ¬CallState.Uprooted start calls locator := by
  have sound := initial.sound.after calls
  have entered := sound.contents tier locator holds
  rw [CallState.tracked_iff sound entered]
  constructor
  · intro accounted uprooted
    have lost := uprooted.lost initial
    exact accounted.elim (· lost.spent.2) lost.unreleased
  · intro spared
    cases (CallState.accounted_or_uprooted initial calls entered).resolve_right spared with
    | entry present => exact .inl present
    | released told => exact .inr told
    | empty idle nothing => exact (holds (nothing tier)).elim

namespace Sample

/-- A write of a byte, with sweeps and the clock between its steps. -/
def slowWrite (time : Timestamp) : List Call :=
  [.openWrite 0 ⟨0, 200⟩ ⟨"", "", 1⟩, .setClock time, .sweep ⟨1000, 2⟩ 1, .write 0 [7], .finish 0]

end Sample

/-- A sweep within the grace interval leaves the entry of an open write. -/
theorem patient_sweep_tracked :
    ((CallState.numbered 1000000).after (Sample.slowWrite 1000500)).vault.Holds .medium [0] ∧
      ¬CallState.Uprooted (.numbered 1000000) (Sample.slowWrite 1000500) [0] := by
  have holds : ((CallState.numbered 1000000).after
      (Sample.slowWrite 1000500)).vault.Holds .medium [0] := by
    unfold Vault.Holds
    decide +kernel
  exact ⟨holds, (content_tracked_unless_uprooted (CallState.numbered_initial (by decide))
    (Sample.slowWrite 1000500) holds).1 (.inl ⟨⟨[0], .medium, 1000000, none, none, none⟩,
      by decide +kernel, rfl, rfl⟩)⟩

/-- A later sweep takes the entry away, and the write brings content that nothing lists. -/
theorem slow_write_untracked :
    (CallState.numbered 1000000).Initial ∧
      ((CallState.numbered 1000000).after (Sample.slowWrite 2000000)).vault.Holds .medium [0] ∧
      ¬(((CallState.numbered 1000000).after (Sample.slowWrite 2000000)).Tracked .medium [0] ∨
        ((CallState.numbered 1000000).after (Sample.slowWrite 2000000)).Released [0]) := by
  refine ⟨CallState.numbered_initial (by decide), ?_, ?_⟩
  · unfold Vault.Holds
    decide +kernel
  · have unlisted : ((CallState.numbered 1000000).after
        (Sample.slowWrite 2000000)).vault.ledger.get [0] = .ok none := by decide +kernel
    have unreleased : ∀ d ∈ ((CallState.numbered 1000000).after (Sample.slowWrite 2000000)).effects,
        d.target? = some [0] → d = .removed [0] ∨ d = .entered [0] .medium 1000000 ∨
          d = .condemned ⟨[0], .medium, 1000000, none, none, none⟩ 2000000 := by decide +kernel
    rintro (⟨e, listed, -⟩ | ⟨holder, told⟩)
    · exact nomatch unlisted.symm.trans listed
    · simpa using unreleased _ told rfl

end BlobLifecycle
