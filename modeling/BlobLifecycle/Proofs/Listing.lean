import BlobLifecycle.Proofs.Faults
import BlobLifecycle.Proofs.Paging
import Mathlib.Data.List.Sort

/-! Listings of entries whose last activity was too long ago. A page shows the first of them after
its cursor, by locator; pages that follow each other show each of them once. -/
namespace BlobLifecycle

theorem Entry.eq_of_row {e e' : Entry} (locator : e'.locator = e.locator) (row : e'.row = e.row) :
    e' = e := by
  have read : e.row.toEntry e.locator = .ok e := LedgerRow.toEntry_eq_ok.2 ⟨rfl, rfl⟩
  have read' : e.row.toEntry e.locator = .ok e' := LedgerRow.toEntry_eq_ok.2 ⟨locator, row.symm⟩
  exact Except.ok.inj (read'.symm.trans read)

def Ascending (es : List Entry) : Prop := es.Pairwise fun a b => a.locator < b.locator

theorem Ascending.eq_of_mem_iff {es es' : List Entry} (ascending : Ascending es)
    (ascending' : Ascending es') (same : ∀ e, e ∈ es ↔ e ∈ es') : es = es' := by
  have : Std.Irrefl fun a b : Entry => a.locator < b.locator := ⟨fun e => List.lt_irrefl e.locator⟩
  have : Std.Antisymm fun a b : Entry => a.locator < b.locator :=
    ⟨fun _ _ less more => absurd (List.lt_trans less more) (List.lt_irrefl _)⟩
  exact List.Pairwise.eq_of_mem_iff ascending ascending' same

namespace Ledger

structure Due (ledger : Ledger) (cutoff : Timestamp) (cursor : Option Locator) (e : Entry) :
    Prop where
  entered : ledger.get e.locator = .ok (some e)
  late : e.lastActivity < cutoff
  after : ∀ passed, cursor = some passed → passed < e.locator

/-- Pages that follow each other: each begins after the last locator of the one before, and the
first that is short is the last. -/
inductive Pages (ledger : Ledger) (cutoff : Timestamp) (limit : Nat) :
    Option Locator → List (List Entry) → Prop
  | last {cursor page} (listed : ledger.listExpired cutoff cursor limit = .ok page)
      (short : page.length < limit) : Pages ledger cutoff limit cursor [page]
  | more {cursor page e pages} (listed : ledger.listExpired cutoff cursor limit = .ok page)
      (full : limit ≤ page.length) (ends : page.getLast? = some e)
      (rest : Pages ledger cutoff limit (some e.locator) pages) :
      Pages ledger cutoff limit cursor (page :: pages)

section

variable {ledger : Ledger} {cutoff : Timestamp} {cursor : Option Locator} {limit : Nat}

theorem isAfter_iff {locator : Locator} :
    isAfter cursor locator = true ↔ ∀ passed, cursor = some passed → passed < locator := by
  cases cursor <;> simp [isAfter]

theorem due_iff {e : Entry} : ledger.Due cutoff cursor e ↔ (e.locator, e.row) ∈
    ledger.entries.filter fun x => x.2.Expired cutoff && isAfter cursor x.1 := by
  rw [List.mem_filter, Bool.and_eq_true, decide_eq_true_eq, e.expired_iff, isAfter_iff,
    ← LocatorMap.find?_eq_some_iff]
  constructor
  · rintro ⟨entered, late, after⟩
    exact ⟨(get_eq_some.1 entered).2, late, after⟩
  · rintro ⟨present, late, after⟩
    exact ⟨get_eq_some.2 ⟨rfl, present⟩, late, after⟩

theorem page_map (f : α → β) (l : List α) : page limit (l.map f) = (page limit l).map f := by
  unfold page
  split
  · exact List.map_take.symm
  · rfl

/-- A limit beyond the signed words bounds nothing, which only more elements than that could show. -/
theorem page_eq_take {l : List α} (bounded : limit ≤ Word.greatest ∨ l.length ≤ limit) :
    page limit l = l.take limit := by
  unfold page
  split
  · rfl
  · next beyond => exact (List.take_of_length_le (bounded.resolve_left beyond)).symm

/-- Every listing is a page of the same entries. -/
theorem WellFormed.listing (wellFormed : ledger.WellFormed) (cutoff : Timestamp)
    (cursor : Option Locator) : ∃ all : List Entry, Ascending all ∧
      (∀ e, e ∈ all ↔ ledger.Due cutoff cursor e) ∧ all.length ≤ ledger.size ∧
      ∀ limit, ledger.listExpired cutoff cursor limit = .ok (page limit all) := by
  let overdue := ledger.entries.filter fun x => x.2.Expired cutoff && isAfter cursor x.1
  have sound : ∀ x ∈ overdue, x.2.WellFormed := fun x member =>
    wellFormed x.1 x.2 (LocatorMap.find?_eq_some_iff.2 (List.mem_filter.1 member).1)
  obtain ⟨all, read⟩ := readAll_ok sound
  have given : overdue = all.map fun e => (e.locator, e.row) := readAll_eq_ok.1 read
  refine ⟨all, ?_, fun e => ?_, ?_, fun limit => ?_⟩
  · have sorted : overdue.Pairwise fun a b => a.1 < b.1 := ledger.sorted.filter _
    rw [given, List.pairwise_map] at sorted
    exact sorted
  · rw [due_iff]
    show e ∈ all ↔ (e.locator, e.row) ∈ overdue
    rw [given]
    refine ⟨List.mem_map_of_mem, fun member => ?_⟩
    obtain ⟨e', member, same⟩ := List.mem_map.1 member
    obtain ⟨locator, row⟩ := Prod.mk.inj same
    exact Entry.eq_of_row locator row ▸ member
  · have fewer : overdue.length ≤ ledger.entries.length := List.length_filter_le ..
    rwa [given, List.length_map] at fewer
  · show ((page limit overdue).mapM fun x => x.2.toEntry x.1) = .ok (page limit all)
    rw [readAll_eq_ok, given, page_map]

theorem due_next {page rest : List Entry} {last : Entry} (ascending : Ascending (page ++ rest))
    (members : ∀ e, e ∈ page ++ rest ↔ ledger.Due cutoff cursor e)
    (ends : page.getLast? = some last) (e : Entry) :
    e ∈ rest ↔ ledger.Due cutoff (some last.locator) e := by
  obtain ⟨sorted, -, apart⟩ := List.pairwise_append.1 ascending
  have here : last ∈ page := List.mem_of_getLast? ends
  have due : ledger.Due cutoff cursor last := (members last).1 (List.mem_append_left _ here)
  constructor
  · intro left
    obtain ⟨entered, late, -⟩ := (members e).1 (List.mem_append_right _ left)
    exact ⟨entered, late, fun _ same => Option.some.inj same ▸ apart last here e left⟩
  · rintro ⟨entered, late, after⟩
    have beyond : last.locator < e.locator := after _ rfl
    have due : ledger.Due cutoff cursor e :=
      ⟨entered, late, fun passed same => List.lt_trans (due.after passed same) beyond⟩
    refine (List.mem_append.1 ((members e).2 due)).resolve_left fun listed => ?_
    obtain ⟨front, rfl⟩ := List.getLast?_eq_some_iff.1 ends
    rcases List.mem_append.1 listed with before | same
    · have less := (List.pairwise_append.1 sorted).2.2 e before last List.mem_cons_self
      exact List.lt_irrefl _ (List.lt_trans less beyond)
    · rw [List.mem_singleton.1 same] at beyond
      exact List.lt_irrefl _ beyond

/-- Page after page shows all that is due, in the same order. -/
theorem WellFormed.pages (wellFormed : ledger.WellFormed) (positive : 1 ≤ limit) {all : List Entry}
    (ascending : Ascending all) (members : ∀ e, e ∈ all ↔ ledger.Due cutoff cursor e) :
    ∃ pages, ledger.Pages cutoff limit cursor pages ∧ pages.flatten = all := by
  induction size : all.length using Nat.strong_induction_on generalizing all cursor with
  | _ n ih =>
    subst size
    obtain ⟨all', ascending', members', -, listed⟩ := wellFormed.listing cutoff cursor
    obtain rfl : all' = all :=
      ascending'.eq_of_mem_iff ascending fun e => (members' e).trans (members e).symm
    obtain ⟨rest, whole⟩ := page_isPrefix limit all'
    by_cases short : (page limit all').length < limit
    · refine ⟨[page limit all'], .last (listed limit) short, ?_⟩
      simpa using Classical.byContradiction fun partly => Nat.not_lt.2 (page_full partly) short
    · have full : limit ≤ (page limit all').length := Nat.le_of_not_lt short
      obtain ⟨last, ends⟩ : ∃ last, (page limit all').getLast? = some last :=
        Option.ne_none_iff_exists'.1 fun none => by
          rw [List.getLast?_eq_none_iff.1 none] at full
          exact Nat.not_succ_le_zero _ (Nat.le_trans positive full)
      have fewer : rest.length < all'.length := by
        have lengths := congrArg List.length whole
        rw [List.length_append] at lengths
        omega
      have sorted : Ascending (page limit all' ++ rest) := whole.symm ▸ ascending
      have members : ∀ e, e ∈ page limit all' ++ rest ↔ ledger.Due cutoff cursor e :=
        whole.symm ▸ members
      have left := due_next sorted members ends
      obtain ⟨pages, further, flat⟩ :=
        ih _ fewer (List.pairwise_append.1 sorted).2.1 left rfl
      exact ⟨_, .more (listed limit) full ends further, by rw [List.flatten_cons, flat, whole]⟩

/-- There is one way only to list page after page. -/
theorem Pages.unique {pages pages' : List (List Entry)}
    (paged : ledger.Pages cutoff limit cursor pages)
    (paged' : ledger.Pages cutoff limit cursor pages') : pages' = pages := by
  induction paged generalizing pages' with
  | last listed short =>
    cases paged' with
    | last listed' => exact congrArg (fun page => [page]) (Except.ok.inj (listed'.symm.trans listed))
    | more listed' full =>
      cases listed'.symm.trans listed
      omega
  | more listed full ends rest ih =>
    cases paged' with
    | last listed' short =>
      cases listed'.symm.trans listed
      omega
    | more listed' full' ends' rest' =>
      cases listed'.symm.trans listed
      cases ends'.symm.trans ends
      rw [ih rest']

end

/-- A listing of a well-formed ledger gives the first entries that are due, and page after page
gives each of them once. A limit beyond the signed words bounds nothing, so that more are given
only if the table has more rows than that. No table has, since it numbers its rows by signed words
that are positive. -/
theorem listing_exact {ledger : Ledger} (wellFormed : ledger.WellFormed) (cutoff : Timestamp)
    (cursor : Option Locator) :
    ∃ all : List Entry, Ascending all ∧ (∀ e, e ∈ all ↔ ledger.Due cutoff cursor e) ∧
      ∀ limit, 1 ≤ limit →
        (∃ page, ledger.listExpired cutoff cursor limit = .ok page ∧ page <+: all ∧
          (limit ≤ Word.greatest ∨ ledger.size ≤ limit → page = all.take limit)) ∧
        ∃ pages, ledger.Pages cutoff limit cursor pages ∧ pages.flatten = all ∧
          ∀ pages', ledger.Pages cutoff limit cursor pages' → pages' = pages := by
  obtain ⟨all, ascending, members, fits, listed⟩ := wellFormed.listing cutoff cursor
  refine ⟨all, ascending, members, fun limit positive => ⟨?_, ?_⟩⟩
  · refine ⟨_, listed limit, page_isPrefix limit all, fun bounded => ?_⟩
    exact page_eq_take (bounded.imp_right (Nat.le_trans fits))
  · obtain ⟨pages, paged, flat⟩ := wellFormed.pages positive ascending members
    exact ⟨pages, paged, flat, fun _ => paged.unique⟩

end Ledger

namespace Sample

/-- Some locators begin like others, and one entry was claimed lately. -/
def lateLedger : Ledger :=
  ((((∅ : Ledger).insert [2] (.fresh .large 5)).insert [1, 0, 0] (.fresh .medium 5)).insert [1, 0]
    ((LedgerRow.fresh .medium 5).claimFor ⟨record, field⟩ 90)).insert [1] (.fresh .medium 5)

theorem lateLedger_wellFormed : lateLedger.WellFormed :=
  (((Ledger.WellFormed.empty.insert _ (.fresh rfl _)).insert _ (.fresh rfl _)).insert _
    ((LedgerRow.WellFormed.fresh rfl _).claimFor _ _)).insert _ (.fresh rfl _)

end Sample

open Sample in
/-- One by one two entries are listed on three pages, the last of which is empty. -/
theorem late_ledger_listed_in_turn :
    let due := [Entry.written [1, 0, 0] .medium 5, .written [2] .large 5]
    lateLedger.WellFormed ∧ Ascending due ∧ (∀ e, e ∈ due ↔ lateLedger.Due 50 (some [1]) e) ∧
      lateLedger.listExpired 50 (some [1]) 1 = .ok (due.take 1) ∧
      lateLedger.listExpired 50 (some [1]) 0x8000000000000000 = .ok due ∧
      ∃ pages, lateLedger.Pages 50 1 (some [1]) pages ∧ pages.flatten = due := by
  intro due
  obtain ⟨all, ascending, members, listed⟩ :=
    Ledger.listing_exact lateLedger_wellFormed 50 (some [1])
  obtain ⟨⟨page, answer, -, first⟩, pages, paged, flat, -⟩ := listed 1 (Nat.le_refl 1)
  obtain ⟨⟨page', answer', -, first'⟩, -⟩ := listed 0x8000000000000000 (by decide)
  have whole : lateLedger.listExpired 50 (some [1]) 0x8000000000000000 = .ok due := rfl
  have begins : all.take 0x8000000000000000 = due :=
    (first' (.inr (by decide))).symm.trans (Except.ok.inj (answer'.symm.trans whole))
  have two : min 0x8000000000000000 all.length = 2 := by
    rw [← List.length_take, begins]
    rfl
  obtain rfl : all = due := by
    rwa [List.take_of_length_le (by omega)] at begins
  exact ⟨lateLedger_wellFormed, ascending, members, first (.inl (by decide)) ▸ answer, whole, pages,
    paged, flat⟩

end BlobLifecycle
