import BlobLifecycle.Proofs.Calls

/-! Handles that writers were given. As long as its entry can be claimed a handle reads back,
and once the entry is gone nothing but a deletion under the handle touches the content. -/
namespace BlobLifecycle

def Call.Spares (call : Call) (h : Handle) : Prop :=
  ∀ handles, call = .discard handles → ¬Places handles h.tier h.locator

def NoDiscards (calls : List Call) : Prop := ∀ call ∈ calls, ∀ handles, call ≠ .discard handles

namespace CallState

variable {d d' : CallState} {h : Handle} {calls : List Call}

def Readable (d : CallState) (h : Handle) : Prop :=
  ∃ content, d.vault.read h.tier h.locator = .ok content

/-- A stored handle that was given and has no entry any more. -/
structure Settled (d : CallState) (h : Handle) : Prop where
  stored : h.tier.isStored = true
  given : h ∈ d.returned
  gone : d.vault.row h.locator = none

def ClaimableReadable (d : CallState) : Prop :=
  ∀ h ∈ d.returned, h.tier.isStored = true → ∀ row, d.vault.row h.locator = some row →
    row.condemnedAt = none → d.Readable h

theorem Readable.of_object (readable : d.Readable h) (sound : Sound d) (sound' : Sound d')
    (stored : h.tier.isStored = true)
    (same : d'.vault.object? h.tier h.locator = d.vault.object? h.tier h.locator) :
    d'.Readable h := by
  obtain ⟨content, read⟩ := readable
  rw [Vault.read_eq_ok sound.named stored, ← same, ← Vault.read_eq_ok sound'.named stored] at read
  exact ⟨content, read⟩

theorem Readable.holds (readable : d.Readable h) (sound : Sound d)
    (stored : h.tier.isStored = true) : d.vault.Holds h.tier h.locator := by
  obtain ⟨content, read⟩ := readable
  obtain ⟨object, present, -⟩ := (Vault.read_eq_ok sound.named stored).1 read
  exact Option.ne_none_iff_exists'.2 ⟨object, present⟩

theorem given_perform (sound : Sound d) (given : h ∈ d.returned) (call : Call) :
    h ∈ (d.perform call).returned := by
  rcases perform_kinds sound call with ⟨n, s, begins⟩ | proceeds
  · exact begins.returned ▸ given
  · rcases proceeds.returned with same | ⟨h', grown, -⟩
    · exact same ▸ given
    · exact grown ▸ List.mem_cons_of_mem _ given

/-- What is settled stays so, and only a deletion of its content changes that. -/
theorem Settled.perform (settled : d.Settled h) (sound : Sound d) (call : Call) :
    (d.perform call).Settled h ∧
      ((d.perform call).vault.object? h.tier h.locator = d.vault.object? h.tier h.locator ∨
        ((d.perform call).vault.object? h.tier h.locator = none ∧ ¬call.Spares h)) := by
  obtain ⟨stored, given, gone⟩ := settled
  obtain ⟨entered, idle⟩ := sound.given h given stored
  have given' := given_perform sound given call
  rcases perform_kinds sound call with ⟨n, s, begins⟩ | proceeds
  · obtain ⟨own, opens, -⟩ := begins.opens
    exact ⟨⟨stored, given', (begins.row_entered sound entered).trans gone⟩,
      .inl (opens.objects _ _)⟩
  · cases proceeds.changes h.locator with
    | kept same objects => exact ⟨⟨stored, given', same.trans gone⟩, .inl (objects _)⟩
    | written running stored here => exact (idle ⟨_, _, running, stored, here⟩).elim
    | claimed before => exact nomatch gone.symm.trans before
    | released before => exact nomatch gone.symm.trans before
    | discarded called same objects =>
      refine ⟨⟨stored, given', same.trans gone⟩, (objects h.tier).imp id fun deleted => ?_⟩
      exact ⟨deleted.1, fun spares => spares _ called deleted.2⟩
    | swept called fate =>
      obtain ⟨gone', objects⟩ := fate.of_gone gone
      exact ⟨⟨stored, given', gone'⟩, .inl (objects _)⟩

theorem ClaimableReadable.perform (claimables : d.ClaimableReadable) (sound : Sound d) (call : Call)
    (spares : ∀ h ∈ d.returned, h.tier.isStored = true → d.vault.row h.locator ≠ none → call.Spares h) :
    (d.perform call).ClaimableReadable := by
  intro h given stored row present unmarked
  have sound' := sound.perform call
  have before (given : h ∈ d.returned) {row : LedgerRow}
      (present : d.vault.row h.locator = some row) (unmarked : row.condemnedAt = none)
      (same : (d.perform call).vault.object? h.tier h.locator = d.vault.object? h.tier h.locator) :
      (d.perform call).Readable h :=
    (claimables h given stored row present unmarked).of_object sound sound' stored same
  rcases perform_kinds sound call with ⟨n, s, begins⟩ | proceeds
  · obtain ⟨own, opens, -⟩ := begins.opens
    rw [begins.returned] at given
    rw [begins.row_entered sound (sound.given h given stored).1] at present
    exact before given present unmarked (opens.objects _ _)
  · have old : h ∈ d.returned ∨ (d.perform call).Readable h := by
      rcases proceeds.returned with same | ⟨h', grown, gives⟩
      · exact .inl (same ▸ given)
      · rw [grown, List.mem_cons] at given
        rcases given with rfl | old
        · obtain ⟨n, s, -, -, -, -, read⟩ := gives stored
          exact .inr read
        · exact .inl old
    rcases old with given | readable
    case inr => exact readable
    cases proceeds.changes h.locator with
    | kept same objects => exact before given (same ▸ present) unmarked (objects _)
    | written running stored' here =>
      exact ((sound.given h given stored).2 ⟨_, _, running, stored', here⟩).elim
    | claimed former grants after objects =>
      exact before given former (grants.elim (·.2) (·.2.2)) (objects _)
    | released former held gone => exact nomatch gone.symm.trans present
    | discarded called same objects =>
      rw [same] at present
      rcases objects h.tier with kept | ⟨-, listed⟩
      · exact before given present unmarked kept
      · refine (spares h given stored ?_ _ called listed).elim
        rw [present]
        exact Option.some_ne_none _
    | swept called fate =>
      cases fate with
      | kept same objects => exact before given (same ▸ present) unmarked (objects _)
      | marked former after =>
        cases Option.some.inj (after.symm.trans present)
        cases unmarked
      | released former held gone => exact nomatch gone.symm.trans present
      | reaped former named gone => exact nomatch gone.symm.trans present

theorem Settled.after (settled : d.Settled h) (sound : Sound d) (noDiscards : NoDiscards calls) :
    (d.after calls).Settled h ∧
      (d.after calls).vault.object? h.tier h.locator = d.vault.object? h.tier h.locator := by
  induction calls generalizing d with
  | nil => exact ⟨settled, rfl⟩
  | cons call rest ih =>
    obtain ⟨noDiscards, noDiscardsRest⟩ := List.forall_mem_cons.1 noDiscards
    obtain ⟨settled', same⟩ := settled.perform sound call
    obtain ⟨settled'', same'⟩ := ih settled' (sound.perform call) noDiscardsRest
    have spares : call.Spares h := fun handles called => (noDiscards handles called).elim
    exact ⟨settled'', same'.trans (same.resolve_right fun changed => changed.2 spares)⟩

theorem ClaimableReadable.after (claimables : d.ClaimableReadable) (sound : Sound d)
    (noDiscards : NoDiscards calls) : (d.after calls).ClaimableReadable := by
  induction calls generalizing d with
  | nil => exact claimables
  | cons call rest ih =>
    obtain ⟨noDiscards, noDiscardsRest⟩ := List.forall_mem_cons.1 noDiscards
    exact ih (claimables.perform sound call fun _ _ _ _ handles called => (noDiscards handles called).elim)
      (sound.perform call) noDiscardsRest

theorem given_after (sound : Sound d) (given : h ∈ d.returned) (calls : List Call) :
    h ∈ (d.after calls).returned := by
  induction calls generalizing d with
  | nil => exact given
  | cons call rest ih => exact ih (sound.perform call) (given_perform sound given call)

end CallState

end BlobLifecycle
