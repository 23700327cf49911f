import BlobLifecycle.Proofs.WellFormed

/-! What a page of the ledger shows: the first overdue entries after the cursor, without a gap,
and all of them if the page is short. -/
namespace BlobLifecycle

namespace Ledger

variable {limit : Nat} {l : List α}

/-- A page that does not hold all is full, whether its limit fits a signed word or not. -/
theorem page_full (partly : page limit l ≠ l) : limit ≤ (page limit l).length := by
  unfold page at partly ⊢
  split
  · next bounded =>
    rw [if_pos bounded] at partly
    have longer : limit ≤ l.length := by
      rcases Nat.lt_or_ge l.length limit with short | longer
      · exact absurd (List.take_of_length_le (Nat.le_of_lt short)) partly
      · exact longer
    have taken : (l.take limit).length = limit := by rw [List.length_take, Nat.min_eq_left longer]
    exact Nat.le_of_eq taken.symm
  · next unbounded => rw [if_neg unbounded] at partly; exact absurd rfl partly

theorem page_zero (l : List α) : page 0 l = [] := by
  simp [page, Word.greatest]

end Ledger

/-- The row is listed with this cutoff. -/
theorem Entry.expired_iff (e : Entry) (cutoff : Timestamp) :
    e.row.Expired cutoff ↔ e.lastActivity < cutoff := by
  unfold LedgerRow.Expired lastActivity row
  cases e.claimedAt with
  | none => simp
  | some time => simp only [Option.some.injEq, forall_eq', Int.max_lt, and_comm]

structure Lists (v : Vault) (cutoff : Timestamp) (cursor : Option Locator) (limit : Nat)
    (page : List Entry) : Prop where
  ascending : (page.map (·.locator)).Pairwise (· < ·)
  after : ∀ e ∈ page, Ledger.isAfter cursor e.locator = true
  present : ∀ e ∈ page, v.row e.locator = some e.row
  overdue : ∀ e ∈ page, e.row.Expired cutoff
  /-- What is left out comes after a full page. -/
  complete : ∀ locator row, v.row locator = some row → row.Expired cutoff →
    Ledger.isAfter cursor locator = true → locator ∉ page.map (·.locator) →
    limit ≤ page.length ∧ ∀ e ∈ page, e.locator < locator
  empty : limit = 0 → page = []

namespace Vault

variable {v : Vault} {cutoff : Timestamp} {cursor : Option Locator} {limit : Nat} {page : List Entry}

theorem lists (answer : (v.answer (.listExpired cutoff cursor limit)).1 = .ok page) :
    Lists v cutoff cursor limit page := by
  let overdue := v.ledger.entries.filter fun e => e.2.Expired cutoff && Ledger.isAfter cursor e.1
  have given : Ledger.page limit overdue = page.map fun e => (e.locator, e.row) :=
    readAll_eq_ok.1 answer
  have sorted : overdue.Pairwise fun a b => a.1 < b.1 := v.ledger.sorted.filter _
  have leads : Ledger.page limit overdue <+: overdue := Ledger.page_isPrefix limit overdue
  have member (e : Entry) (here : e ∈ page) : (e.locator, e.row) ∈ overdue :=
    leads.subset (given ▸ List.mem_map_of_mem here)
  have found (e : Entry) (here : e ∈ page) := List.mem_filter.1 (member e here)
  constructor
  · have prefixSorted := sorted.sublist leads.sublist
    rw [given, List.pairwise_map] at prefixSorted
    exact List.pairwise_map.2 prefixSorted
  · intro e here
    have chosen := (found e here).2
    simp only [Bool.and_eq_true] at chosen
    exact chosen.2
  · exact fun e here => LocatorMap.find?_eq_some_iff.2 (found e here).1
  · intro e here
    have chosen := (found e here).2
    simp only [Bool.and_eq_true, decide_eq_true_eq] at chosen
    exact chosen.1
  · intro locator row present expired after omitted
    have due : (locator, row) ∈ overdue := by
      refine List.mem_filter.2 ⟨LocatorMap.find?_eq_some_iff.1 present, ?_⟩
      simp [expired, after]
    have apart : (locator, row) ∉ Ledger.page limit overdue := by
      rw [given]
      intro here
      obtain ⟨e, listed, same⟩ := List.mem_map.1 here
      exact omitted (List.mem_map.2 ⟨e, listed, congrArg Prod.fst same⟩)
    have full := Ledger.page_full fun whole => apart (whole.symm ▸ due)
    rw [given, List.length_map] at full
    refine ⟨full, fun e here => ?_⟩
    obtain ⟨rest, whole⟩ := leads
    have beyond : (locator, row) ∈ rest :=
      (List.mem_append.1 (whole.symm ▸ due)).resolve_left apart
    rw [← whole, given] at sorted
    exact (List.pairwise_append.1 sorted).2.2 _ (List.mem_map_of_mem here) _ beyond
  · rintro rfl
    have none := given
    rw [Ledger.page_zero] at none
    exact List.map_eq_nil_iff.1 none.symm

end Vault

namespace Lists

variable {v : Vault} {cutoff : Timestamp} {cursor : Option Locator} {limit : Nat} {page : List Entry}
  {last : Entry} {locator : Locator} {row : LedgerRow}

theorem last_mem (ends : page.getLast? = some last) : last ∈ page := List.mem_of_getLast? ends

/-- The last entry of a page has the greatest locator. -/
theorem le_last (lists : Lists v cutoff cursor limit page) (ends : page.getLast? = some last)
    {e : Entry} (here : e ∈ page) : ¬last.locator < e.locator := by
  obtain ⟨front, rfl⟩ := List.getLast?_eq_some_iff.1 ends
  have sorted := lists.ascending
  rw [List.map_append, List.pairwise_append] at sorted
  rcases List.mem_append.1 here with before | same
  · have less := sorted.2.2 e.locator (List.mem_map_of_mem before) last.locator (by simp)
    exact List.not_lt.2 (List.le_of_lt less)
  · rw [List.mem_singleton.1 same]
    exact List.lt_irrefl _

end Lists

end BlobLifecycle
