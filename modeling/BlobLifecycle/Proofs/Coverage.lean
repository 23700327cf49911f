import BlobLifecycle.Proofs.Grace
import BlobLifecycle.Proofs.Paging
import BlobLifecycle.Proofs.Visits
import Mathlib.Data.Finset.Card

/-! What a sweep covers while others work on the ledger: each overdue entry that they leave
alone once, no entry twice, and no more than there is. -/
namespace BlobLifecycle

/-- After some requests of others a page is listed, and its entries are handled as far as here. -/
inductive Round (cutoff : Timestamp) (cursor : Option Locator) (batchSize : Nat) (page : List Entry) :
    List Exchange → Prop
  | listed {front rest : List Exchange} {before after : Vault}
      (apart : ∀ x ∈ front, x.isOwn = false) (lists : Lists before cutoff cursor batchSize page)
      (handles : Handles page rest)
      (avoids : ∀ locator ∉ page.map (·.locator), ∀ x ∈ rest, x.isOwn = true →
        x.request.row? ≠ some locator) :
      Round cutoff cursor batchSize page
        (front ++ ⟨true, before, .listExpired cutoff cursor batchSize, .ok page, after⟩ :: rest)

def Undisturbed (locator : Locator) (xs : List Exchange) : Prop :=
  ∀ earlier x later, xs = earlier ++ x :: later → x.isOwn = false →
    x.after.row locator ≠ x.before.row locator → locator ∈ examined earlier

namespace Undisturbed

variable {locator : Locator} {xs ys : List Exchange}

theorem left (undisturbed : Undisturbed locator (xs ++ ys)) : Undisturbed locator xs := by
  rintro earlier x later rfl other changed
  exact undisturbed earlier x (later ++ ys) (by simp) other changed

theorem right (undisturbed : Undisturbed locator (xs ++ ys)) (unseen : locator ∉ examined xs) :
    Undisturbed locator ys := by
  rintro earlier x later rfl other changed
  have seen := undisturbed (xs ++ earlier) x later (by simp) other changed
  rw [examined_append] at seen
  exact (List.mem_append.1 seen).resolve_left unseen

/-- Others who ask nothing of a row leave it alone. -/
theorem of_aside {v v' : Vault} (dialogue : Dialogue v xs v')
    (aside : ∀ x ∈ xs, x.isOwn = false → x.request.row? ≠ some locator) : Undisturbed locator xs := by
  rintro earlier x later rfl other changed
  have member : x ∈ earlier ++ x :: later := by simp
  exact absurd ((dialogue.happens member).row_other (aside x member other)) changed

/-- A row that is not looked up stays if the program's own requests leave it. -/
theorem stays {v v' : Vault} (undisturbed : Undisturbed locator xs) (dialogue : Dialogue v xs v')
    (unseen : locator ∉ examined xs)
    (aside : ∀ x ∈ xs, x.isOwn = true → x.request.row? ≠ some locator) :
    v'.row locator = v.row locator := by
  refine dialogue.keeps (fun ledger => ledger.find? locator = v.row locator) rfl ?_
  intro x member happens same
  refine Eq.trans ?_ same
  cases own : x.isOwn with
  | true => exact happens.row_other (aside x member own)
  | false =>
    obtain ⟨earlier, later, rfl⟩ := List.append_of_mem member
    refine Classical.byContradiction fun changed => unseen ?_
    rw [examined_append]
    exact List.mem_append_left _ (undisturbed earlier x later rfl own changed)

end Undisturbed

namespace Round

variable {cutoff : Timestamp} {cursor : Option Locator} {batchSize : Nat} {page : List Entry}
  {xs : List Exchange}

theorem inOrder (round : Round cutoff cursor batchSize page xs) :
    examined xs <+: page.map (·.locator) := by
  obtain ⟨apart, -, handles, -⟩ := round
  rw [examined_append, examined_others apart, examined_own rfl]
  exact handles.inOrder

theorem listings (round : Round cutoff cursor batchSize page xs) : listings xs = 1 := by
  obtain ⟨apart, -, handles, -⟩ := round
  rw [listings_append, listings_others apart, listings_own rfl, handles.noListing]
  rfl

theorem few (round : Round cutoff cursor batchSize page xs) :
    ownRequests xs ≤ 7 * (examined xs).length + 1 := by
  obtain ⟨apart, -, handles, -⟩ := round
  rw [examined_append, examined_others apart, examined_own rfl, ownRequests_append,
    ownRequests_others apart, ownRequests_own rfl]
  have := handles.few
  simp only [Request.lookup?, Option.toList_none, List.nil_append]
  omega

theorem lists (round : Round cutoff cursor batchSize page xs) :
    ∃ x ∈ xs, Lists x.before cutoff cursor batchSize page := by
  obtain ⟨-, lists, -, -⟩ := round
  exact ⟨_, List.mem_append_right _ List.mem_cons_self, lists⟩

/-- An overdue entry that is left alone is on the page, or comes after it and stays. -/
theorem covers (round : Round cutoff cursor batchSize page xs) {v v' : Vault} {locator : Locator}
    {row : LedgerRow} (dialogue : Dialogue v xs v') (undisturbed : Undisturbed locator xs)
    (present : v.row locator = some row) (expired : row.Expired cutoff)
    (after : Ledger.isAfter cursor locator = true) (absent : locator ∉ page.map (·.locator)) :
    batchSize ≤ page.length ∧ (∀ e ∈ page, e.locator < locator) ∧ v'.row locator = some row := by
  have unseen : locator ∉ examined xs := fun seen => absent (round.inOrder.subset seen)
  obtain ⟨apart, lists, -, avoids⟩ := round
  obtain ⟨w, first, same, happens, rest⟩ := Dialogue.append_iff.1 dialogue
  have listed : w.row locator = some row := by
    rw [undisturbed.left.stays first (by simp [examined_others apart])
      fun x member own => absurd (apart x member) (by simp [own]), present]
  obtain ⟨full, beyond⟩ :=
    lists.complete locator row ((Vault.row_of_ledger same _).trans listed) expired after absent
  refine ⟨full, beyond, ?_⟩
  rw [undisturbed.stays dialogue unseen, present]
  intro x member own
  rcases List.mem_append.1 member with early | late
  · exact absurd (apart x early) (by simp [own])
  · rcases List.mem_cons.1 late with rfl | late
    · nofun
    · exact avoids locator absent x late own

end Round

structure Unfailing (v : Vault) (xs : List Exchange) (v' : Vault) : Prop where
  wellFormed : v.ledger.WellFormed
  dialogue : Dialogue v xs v'
  served : ∀ x ∈ xs, x.isOwn = true → x.request.isListing = true → x.Served

namespace Unfailing

variable {v v' : Vault} {xs ys : List Exchange}

theorem append (unfailing : Unfailing v (xs ++ ys) v') :
    ∃ w, Unfailing v xs w ∧ Unfailing w ys v' := by
  obtain ⟨w, first, second⟩ := Dialogue.append_iff.1 unfailing.dialogue
  refine ⟨w, ⟨unfailing.wellFormed, first, ?_⟩, ⟨first.wellFormed unfailing.wellFormed, second, ?_⟩⟩
  · exact fun x member => unfailing.served x (List.mem_append_left _ member)
  · exact fun x member => unfailing.served x (List.mem_append_right _ member)

theorem listing {front rest : List Exchange} {before after : Vault} {cutoff : Timestamp}
    {cursor : Option Locator} {limit : Nat} {reply : (Request.listExpired cutoff cursor limit).Reply}
    (unfailing : Unfailing v
      (front ++ ⟨true, before, .listExpired cutoff cursor limit, reply, after⟩ :: rest) v') :
    ∃ page, reply = .ok page ∧ Lists before cutoff cursor limit page ∧ Dialogue after rest v' := by
  obtain ⟨w, first, same, -, second⟩ := Dialogue.append_iff.1 unfailing.dialogue
  have kept : before.ledger.WellFormed := same ▸ first.wellFormed unfailing.wellFormed
  have answer : reply = (before.answer (.listExpired cutoff cursor limit)).1 :=
    unfailing.served ⟨true, before, _, reply, after⟩ (by simp) rfl rfl
  obtain ⟨page, given⟩ := kept.listExpired cutoff cursor limit
  exact ⟨page, answer.trans given, Vault.lists given, second⟩

end Unfailing

/-- What the requests of `sweepPages` come to: nothing yet, a round that goes on, the last round,
or a round and what follows a full page. The bound of pages matters only to what follows. -/
inductive Turns (cutoff now : Timestamp) (cursor : Option Locator) (batchSize pages : Nat)
    (report : SweepReport) (q : Program (Except BlobError SweepReport)) : List Exchange → Prop
  | waiting {xs} (others : ∀ x ∈ xs, x.isOwn = false) (pending : ∀ result, q ≠ .done result) :
      Turns cutoff now cursor batchSize pages report q xs
  | within {xs page} (round : Round cutoff cursor batchSize page xs)
      (pending : ∀ result, q ≠ .done result) :
      Turns cutoff now cursor batchSize pages report q xs
  | last {xs page after} (round : Round cutoff cursor batchSize page xs)
      (whole : examined xs = page.map (·.locator))
      (counted : after.examined = report.examined + page.length) (ended : q = .done (.ok after))
      (short : page = [] ∨ page.length < batchSize)
      (again : ∀ pages', (sweepPages batchSize cutoff now (pages' + 1) cursor report).run.Joins xs q) :
      Turns cutoff now cursor batchSize pages report q xs
  | next {xs ys page after last} (round : Round cutoff cursor batchSize page xs)
      (whole : examined xs = page.map (·.locator))
      (counted : after.examined = report.examined + page.length) (full : batchSize ≤ page.length)
      (ends : page.getLast? = some last)
      (joins : (sweepPages batchSize cutoff now pages (some last.locator) after).run.Joins ys q)
      (again : ∀ pages', (sweepPages batchSize cutoff now pages' (some last.locator) after).run.Joins
        ys q → (sweepPages batchSize cutoff now (pages' + 1) cursor report).run.Joins (xs ++ ys) q) :
      Turns cutoff now cursor batchSize pages report q (xs ++ ys)

section

open Program

variable {cutoff now : Timestamp} {cursor : Option Locator} {batchSize pages : Nat}
  {report : SweepReport} {xs : List Exchange} {q : Program (Except BlobError SweepReport)}
  {v v' : Vault}

theorem sweepPages_round {front during more : List Exchange} {before after : Vault}
    {page : List Entry} {counts : SweepReport} (apart : ∀ x ∈ front, x.isOwn = false)
    (handled : (sweepPage cutoff now page report).Joins during (.done counts))
    (rest : (match page.getLast? with
      | none => return counts
      | some last =>
        if page.length < batchSize then return counts
        else sweepPages batchSize cutoff now pages (some last.locator) counts :
        Operation SweepReport).run.Joins more q) :
    (sweepPages batchSize cutoff now (pages + 1) cursor report).run.Joins
      (front ++ ⟨true, before, .listExpired cutoff cursor batchSize, .ok page, after⟩ ::
        (during ++ more)) q :=
  Joins.append_iff.2 ⟨_, .of_others apart _,
    (Joins.own_iff rfl).2 ⟨_, rfl, Operation.joins_lift.2 (Joins.bind_of handled rest)⟩⟩

theorem sweepPages_turns (unfailing : Unfailing v xs v')
    (joins : (sweepPages batchSize cutoff now (pages + 1) cursor report).run.Joins xs q) :
    Turns cutoff now cursor batchSize pages report q xs := by
  rcases Joins.call (r := .listExpired cutoff cursor batchSize) joins with
    ⟨others, rfl⟩ | ⟨front, before, reply, after, rest, rfl, apart, joins⟩
  · exact .waiting others nofun
  obtain ⟨page, rfl, lists, second⟩ := unfailing.listing
  have round {rest : List Exchange} {w : Vault} {p' : Program SweepReport}
      (dialogue : Dialogue after rest w) (joins : (sweepPage cutoff now page report).Joins rest p') :
      Round cutoff cursor batchSize page
        (front ++ ⟨true, before, .listExpired cutoff cursor batchSize, .ok page, after⟩ :: rest) := by
    refine .listed apart lists (sweepPage_joins joins).1 fun locator absent => ?_
    exact fun x member own => ((joins.asks (sweepPage_avoids absent report) dialogue).2 x member own).1
  rcases Joins.bind (Operation.joins_lift.1 joins) with
    ⟨p', going, pending, rfl⟩ | ⟨during, more, counts, rfl, ended, joins⟩
  · refine .within (round second going) fun result same => ?_
    cases p' with
    | done a => exact absurd rfl (pending a)
    | call => cases same
  obtain ⟨-, whole⟩ := sweepPage_joins ended
  obtain ⟨all, counted⟩ := whole counts rfl
  have listed {rest : List Exchange} (all : examined rest = page.map (·.locator)) :
      examined (front ++ ⟨true, before, .listExpired cutoff cursor batchSize, .ok page, after⟩ :: rest) =
        page.map (·.locator) := by
    rw [examined_append, examined_others apart, examined_own rfl, all]
    rfl
  have stop (joins : (Program.done (.ok counts)).Joins more q)
      (short : page = [] ∨ page.length < batchSize) :
      Turns cutoff now cursor batchSize pages report q
        (front ++ ⟨true, before, .listExpired cutoff cursor batchSize, .ok page, after⟩ ::
          (during ++ more)) := by
    obtain ⟨others, rfl⟩ := joins.done
    refine .last (round second (Joins.append_iff.2 ⟨_, ended, .of_others others _⟩)) ?_ counted rfl
      short fun pages' => sweepPages_round apart ended ?_
    · exact listed (by rw [examined_append, all, examined_others others, List.append_nil])
    · rcases short with rfl | short
      · exact joins
      · split
        · exact joins
        · rw [if_pos short]
          exact joins
  split at joins
  · next empty => exact stop joins (.inl (List.getLast?_eq_none_iff.1 empty))
  · next final ends =>
    split at joins
    · next short => exact stop joins (.inr short)
    · next full =>
      obtain ⟨w', first', -⟩ := Dialogue.append_iff.1 second
      rw [← List.cons_append, ← List.append_assoc]
      refine .next (round first' ended) (listed all) counted (Nat.le_of_not_lt full) ends joins
        fun pages' joins => ?_
      rw [List.append_assoc, List.cons_append]
      refine sweepPages_round apart ended ?_
      rw [ends]
      dsimp only
      rw [if_neg full]
      exact joins

structure Reach (cursor : Option Locator) (xs : List Exchange) : Prop where
  ascending : (examined xs).Pairwise (· < ·)
  after : ∀ locator ∈ examined xs, Ledger.isAfter cursor locator = true
  known : ∀ locator ∈ examined xs, ∃ x ∈ xs, ∃ row, x.before.row locator = some row
  listings : listings xs ≤ (examined xs).length + 1
  requests : ownRequests xs ≤ 7 * (examined xs).length + BlobLifecycle.listings xs

theorem Reach.others (others : ∀ x ∈ xs, x.isOwn = false) : Reach cursor xs := by
  constructor
  all_goals simp [examined_others others, listings_others others, ownRequests_others others]

namespace Round

variable {page : List Entry} {ys : List Exchange} {last : Entry}

theorem reach (round : Round cutoff cursor batchSize page xs) : Reach cursor xs := by
  obtain ⟨x, member, lists⟩ := round.lists
  have listed {locator : Locator} (seen : locator ∈ examined xs) :
      ∃ e ∈ page, e.locator = locator := List.mem_map.1 (round.inOrder.subset seen)
  refine ⟨lists.ascending.sublist round.inOrder.sublist, ?_, ?_, ?_, ?_⟩
  · intro locator seen
    obtain ⟨e, here, rfl⟩ := listed seen
    exact lists.after e here
  · intro locator seen
    obtain ⟨e, here, rfl⟩ := listed seen
    exact ⟨x, member, e.row, lists.present e here⟩
  · rw [round.listings]
    exact Nat.le_add_left 1 _
  · rw [round.listings]
    exact round.few

theorem reach_next (round : Round cutoff cursor batchSize page xs)
    (whole : examined xs = page.map (·.locator)) (ends : page.getLast? = some last)
    (rest : Reach (some last.locator) ys) : Reach cursor (xs ++ ys) := by
  have first := round.reach
  obtain ⟨x, -, lists⟩ := round.lists
  have beyond {locator : Locator} (seen : locator ∈ examined ys) : last.locator < locator := by
    simpa [Ledger.isAfter] using rest.after locator seen
  have nonempty : 1 ≤ (examined xs).length := by
    rw [whole, List.length_map]
    exact List.length_pos_of_mem (Lists.last_mem ends)
  have listings := rest.listings
  have requests := rest.requests
  have requests' := first.requests
  constructor
  · rw [examined_append, List.pairwise_append]
    refine ⟨first.ascending, rest.ascending, fun a early b late => ?_⟩
    rw [whole] at early
    obtain ⟨e, here, rfl⟩ := List.mem_map.1 early
    exact List.lt_of_le_of_lt (List.not_lt.1 (lists.le_last ends here)) (beyond late)
  · intro locator seen
    rw [examined_append] at seen
    rcases List.mem_append.1 seen with early | late
    · exact first.after locator early
    · have start := lists.after last (Lists.last_mem ends)
      cases cursor with
      | none => rfl
      | some c =>
        simp only [Ledger.isAfter, decide_eq_true_eq] at start ⊢
        exact List.lt_trans start (beyond late)
  · intro locator seen
    rw [examined_append] at seen
    rcases List.mem_append.1 seen with early | late
    · obtain ⟨x, member, there⟩ := first.known locator early
      exact ⟨x, List.mem_append_left _ member, there⟩
    · obtain ⟨x, member, there⟩ := rest.known locator late
      exact ⟨x, List.mem_append_right _ member, there⟩
  · rw [examined_append, listings_append, round.listings, List.length_append]
    omega
  · rw [examined_append, ownRequests_append, listings_append, List.length_append]
    omega

end Round

theorem sweepPages_reach (unfailing : Unfailing v xs v')
    (joins : (sweepPages batchSize cutoff now pages cursor report).run.Joins xs q) :
    Reach cursor xs := by
  induction pages generalizing v xs cursor report with
  | zero => exact .others joins.done.1
  | succ pages ih =>
    cases sweepPages_turns unfailing joins with
    | waiting others => exact .others others
    | within round | last round => exact round.reach
    | next round whole counted full ends rest =>
      obtain ⟨w, -, second⟩ := unfailing.append
      exact round.reach_next whole ends (ih second rest)

structure Covers (v : Vault) (cutoff : Timestamp) (cursor : Option Locator) (report : SweepReport)
    (xs : List Exchange) (result : Except BlobError SweepReport) : Prop where
  counted : ∃ counts, result = .ok counts ∧
    counts.examined = report.examined + (examined xs).length
  overdue : ∀ locator row, v.row locator = some row → row.Expired cutoff →
    Ledger.isAfter cursor locator = true → Undisturbed locator xs → locator ∈ examined xs

theorem Round.covers_last {page : List Entry} {counts : SweepReport}
    (round : Round cutoff cursor batchSize page xs) (positive : 0 < batchSize)
    (dialogue : Dialogue v xs v') (whole : examined xs = page.map (·.locator))
    (counted : counts.examined = report.examined + page.length)
    (short : page = [] ∨ page.length < batchSize) :
    Covers v cutoff cursor report xs (.ok counts) := by
  refine ⟨⟨counts, rfl, by rw [counted, whole, List.length_map]⟩, ?_⟩
  intro locator row present expired after undisturbed
  refine whole ▸ Classical.byContradiction fun absent => ?_
  obtain ⟨full, -⟩ := round.covers dialogue undisturbed present expired after absent
  rcases short with rfl | short
  · exact Nat.lt_irrefl 0 (Nat.lt_of_lt_of_le positive full)
  · omega

theorem Round.covers_next {page : List Entry} {counts : SweepReport} {ys : List Exchange} {w : Vault}
    {last : Entry} {result : Except BlobError SweepReport}
    (round : Round cutoff cursor batchSize page xs) (dialogue : Dialogue v xs w)
    (whole : examined xs = page.map (·.locator))
    (counted : counts.examined = report.examined + page.length) (ends : page.getLast? = some last)
    (rest : Covers w cutoff (some last.locator) counts ys result) :
    Covers v cutoff cursor report (xs ++ ys) result := by
  constructor
  · obtain ⟨final, same, total⟩ := rest.counted
    refine ⟨final, same, ?_⟩
    rw [total, counted, examined_append, List.length_append, whole, List.length_map]
    omega
  · intro locator row present expired after undisturbed
    rw [examined_append]
    by_cases listed : locator ∈ page.map (·.locator)
    · exact List.mem_append_left _ (whole ▸ listed)
    · obtain ⟨-, beyond, stays⟩ :=
        round.covers dialogue undisturbed.left present expired after listed
      refine List.mem_append_right _ (rest.overdue locator row stays expired ?_
        (undisturbed.right (whole ▸ listed)))
      exact decide_eq_true (beyond last (Lists.last_mem ends))

theorem sweepPages_covers (positive : 0 < batchSize) (unfailing : Unfailing v xs v')
    (joins : (sweepPages batchSize cutoff now pages cursor report).run.Joins xs q)
    {result : Except BlobError SweepReport} (ended : q = .done result) (unspent : listings xs < pages) :
    Covers v cutoff cursor report xs result := by
  induction pages generalizing v xs cursor report with
  | zero => exact absurd unspent (Nat.not_lt_zero _)
  | succ pages ih =>
    cases sweepPages_turns unfailing joins with
    | waiting _ pending | within _ pending => exact absurd ended (pending result)
    | last round whole counted ended' short =>
      cases ended.symm.trans ended'
      exact round.covers_last positive unfailing.dialogue whole counted short
    | next round whole counted full ends rest =>
      obtain ⟨w, first, second⟩ := unfailing.append
      rw [listings_append, round.listings] at unspent
      exact round.covers_next first.dialogue whole counted ends (ih second rest (by omega))

/-- The bound of pages is not felt by a sweep that ends before it. -/
theorem sweepPages_unbounded (unfailing : Unfailing v xs v')
    (joins : (sweepPages batchSize cutoff now pages cursor report).run.Joins xs q)
    {result : Except BlobError SweepReport} (ended : q = .done result) (unspent : listings xs < pages)
    {pages' : Nat} (unspent' : listings xs < pages') :
    (sweepPages batchSize cutoff now pages' cursor report).run.Joins xs q := by
  induction pages generalizing v xs cursor report pages' with
  | zero => exact absurd unspent (Nat.not_lt_zero _)
  | succ pages ih =>
    obtain ⟨pages', rfl⟩ : ∃ n, pages' = n + 1 := Nat.exists_eq_add_one.2 (by omega)
    cases sweepPages_turns unfailing joins with
    | waiting _ pending | within _ pending => exact absurd ended (pending result)
    | last _ _ _ _ _ again => exact again pages'
    | next round whole counted full ends rest again =>
      obtain ⟨w, -, second⟩ := unfailing.append
      rw [listings_append, round.listings] at unspent unspent'
      exact again pages' (ih second rest (by omega) (by omega))

theorem sweepPages_idle (unfailing : Unfailing v xs v')
    (joins : (sweepPages 0 cutoff now pages cursor report).run.Joins xs q) :
    examined xs = [] ∧ ownRequests xs ≤ 1 := by
  have idle (page : List Entry) (round : Round cutoff cursor 0 page xs) :
      examined xs = [] ∧ ownRequests xs ≤ 1 := by
    obtain ⟨x, -, lists⟩ := round.lists
    obtain rfl := lists.empty rfl
    have none : examined xs = [] := List.prefix_nil.1 round.inOrder
    have few := round.few
    rw [none] at few
    exact ⟨none, few⟩
  cases pages with
  | zero =>
    have others := joins.done.1
    exact ⟨examined_others others, by simp [ownRequests_others others]⟩
  | succ pages =>
    cases sweepPages_turns unfailing joins with
    | waiting others => exact ⟨examined_others others, by simp [ownRequests_others others]⟩
    | within round | last round => exact idle _ round
    | next round whole counted full ends =>
      obtain ⟨x, -, lists⟩ := round.lists
      obtain rfl := lists.empty rfl
      cases ends

/-- A sweep reads the clock, handles the pages, and tells what it did. -/
theorem sweep_run (settings : SweepSettings) :
    ∃ finish : Except BlobError SweepReport → Program (Except BlobError SweepReport),
      (∀ pages, (sweep settings pages).run = .call .now fun start =>
        (sweepPages settings.batchSize (start.back settings.graceInterval) start pages none .zero).run
          >>= finish) ∧
      ∀ result, finish result = .done result ∨
        ∃ event, finish result = .call (.log event) fun _ => .done result := by
  refine ⟨ExceptT.bindCont fun report => do
    if report.isEventful then Operation.log (.sweepFinished report)
    return report, fun pages => rfl, fun result => ?_⟩
  cases result with
  | error error => exact .inl rfl
  | ok report =>
    cases eventful : report.isEventful with
    | false => exact .inl (by simp only [ExceptT.bindCont, eventful]; rfl)
    | true => exact .inr ⟨.sweepFinished report, by simp only [ExceptT.bindCont, eventful]; rfl⟩

inductive SweepTurns (settings : SweepSettings) (pages : Nat)
    (q : Program (Except BlobError SweepReport)) : List Exchange → Prop
  | waiting {ys} (others : ∀ x ∈ ys, x.isOwn = false) (pending : ∀ result, q ≠ .done result) :
      SweepTurns settings pages q ys
  | begun {front rest tail before start after p} (apart : ∀ x ∈ front, x.isOwn = false)
      (joins : (sweepPages settings.batchSize (start.back settings.graceInterval) start pages none
        .zero).run.Joins rest p)
      (details : ∀ x ∈ tail, x.isOwn = true → x.request.IsDetail) (few : ownRequests tail ≤ 1)
      (ended : ∀ result, q = .done result → p = .done result ∧ ∀ pages',
        (sweepPages settings.batchSize (start.back settings.graceInterval) start pages' none
          .zero).run.Joins rest p →
        (sweep settings pages').run.Joins
          (front ++ ⟨true, before, .now, start, after⟩ :: (rest ++ tail)) q) :
      SweepTurns settings pages q (front ++ ⟨true, before, .now, start, after⟩ :: (rest ++ tail))

theorem sweep_turns {settings : SweepSettings}
    (joins : (sweep settings pages).run.Joins xs q) : SweepTurns settings pages q xs := by
  obtain ⟨finish, run, message⟩ := sweep_run settings
  rw [run] at joins
  rcases joins.call with ⟨others, rfl⟩ | ⟨front, before, start, after, rest, rfl, apart, joins⟩
  · exact .waiting others nofun
  rcases joins.bind with ⟨p, going, pending, rfl⟩ | ⟨during, tail, result, rfl, handled, joins⟩
  · rw [← List.append_nil rest]
    refine .begun apart going (List.forall_mem_nil _) (Nat.zero_le 1) fun result same => ?_
    cases p with
    | done a => exact absurd rfl (pending a)
    | call => cases same
  · have makes : (finish result).Makes Request.IsDetail 1 := by
      rcases message result with same | ⟨event, same⟩ <;> rw [same]
      · trivial
      · exact ⟨⟨rfl, rfl⟩, 0, rfl, fun _ => trivial⟩
    obtain ⟨few, details⟩ := makes.joins joins
    refine .begun apart handled details few fun final same => ⟨?_, fun pages' again => ?_⟩
    · subst same
      rcases message result with silent | ⟨event, told⟩
      · rw [silent] at joins
        exact joins.done.2.symm
      · rw [told] at joins
        rcases joins.call with ⟨-, same⟩ | ⟨_, _, _, _, _, -, -, joins⟩
        · cases same
        · exact joins.done.2.symm
    · rw [run]
      exact Joins.append_iff.2 ⟨_, .of_others apart _,
        (Joins.own_iff rfl).2 ⟨_, rfl, Joins.bind_of again joins⟩⟩

structure SweepCoverage (settings : SweepSettings) (pages : Nat) (v : Vault) (xs : List Exchange)
    (q : Program (Except BlobError SweepReport)) : Prop where
  /-- No locator is looked up twice. -/
  once : (examined xs).Nodup
  /-- No more requests than the locators that had a row meanwhile give reason for. -/
  bounded : ∀ known : Finset Locator,
    (∀ x ∈ xs, ∀ locator row, x.before.row locator = some row → locator ∈ known) →
    listings xs ≤ known.card + 1 ∧ ownRequests xs ≤ 8 * known.card + 3
  /-- An empty batch ends a sweep at once. -/
  idle : settings.batchSize = 0 → examined xs = [] ∧ ownRequests xs ≤ 3
  /-- A sweep that ends before its bound of pages succeeds, and has looked up every entry that was
  overdue when it started and was left alone. -/
  complete : ∀ result, q = .done result → listings xs < pages → 0 < settings.batchSize →
    ∃ start report, (ownEffects xs).head? = some (.read start) ∧ result = .ok report ∧
      report.examined = (examined xs).length ∧
      ∀ e : Entry, v.row e.locator = some e.row →
        e.lastActivity < start.back settings.graceInterval → Undisturbed e.locator xs →
        (examined xs).count e.locator = 1
  /-- That bound makes no difference then. -/
  unbounded : ∀ result, q = .done result → listings xs < pages → ∀ pages', listings xs < pages' →
    (sweep settings pages').run.Joins xs q

section

variable {front rest tail : List Exchange} {before after : Vault} {start : Timestamp}

theorem examined_begun (apart : ∀ x ∈ front, x.isOwn = false)
    (details : ∀ x ∈ tail, x.isOwn = true → x.request.IsDetail) :
    examined (front ++ ⟨true, before, .now, start, after⟩ :: (rest ++ tail)) = examined rest := by
  rw [examined_append, examined_others apart, examined_own rfl, examined_append,
    examined_details details, List.append_nil]
  rfl

theorem listings_begun (apart : ∀ x ∈ front, x.isOwn = false)
    (details : ∀ x ∈ tail, x.isOwn = true → x.request.IsDetail) :
    listings (front ++ ⟨true, before, .now, start, after⟩ :: (rest ++ tail)) = listings rest := by
  rw [listings_append, listings_others apart, listings_own rfl, listings_append,
    listings_details details, Nat.zero_add]
  rfl

theorem ownRequests_begun (apart : ∀ x ∈ front, x.isOwn = false) (few : ownRequests tail ≤ 1) :
    ownRequests (front ++ ⟨true, before, .now, start, after⟩ :: (rest ++ tail)) ≤
      ownRequests rest + 2 := by
  rw [ownRequests_append, ownRequests_others apart, ownRequests_own rfl, ownRequests_append]
  omega

/-- What is left alone until it is looked up is so until the pages begin. -/
theorem Undisturbed.begun {w : Vault} {locator : Locator}
    (undisturbed : Undisturbed locator (front ++ ⟨true, before, .now, start, after⟩ :: rest))
    (apart : ∀ x ∈ front, x.isOwn = false)
    (dialogue : Dialogue v (front ++ [⟨true, before, .now, start, after⟩]) w) :
    w.row locator = v.row locator ∧ Undisturbed locator rest := by
  rw [List.append_cons] at undisturbed
  have unseen : locator ∉ examined (front ++ [⟨true, before, .now, start, after⟩]) := by
    rw [examined_append, examined_others apart, examined_own rfl]
    exact List.not_mem_nil
  refine ⟨undisturbed.left.stays dialogue unseen fun x member own => ?_, undisturbed.right unseen⟩
  rcases List.mem_append.1 member with early | late
  · exact absurd (apart x early) (by simp [own])
  · rw [List.mem_singleton.1 late]
    nofun

end

/-- Every overdue entry that others leave alone is examined once in a sweep, whatever else they do
to the ledger between its requests, no locator is examined twice, and the sweep ends. -/
theorem overdue_examined_once {settings : SweepSettings} (wellFormed : v.ledger.WellFormed)
    (dialogue : Dialogue v xs v')
    (served : ∀ x ∈ xs, x.isOwn = true → x.request.isListing = true → x.Served)
    (joins : (sweep settings pages).run.Joins xs q) : SweepCoverage settings pages v xs q := by
  cases sweep_turns joins with
  | waiting others pending =>
    constructor
    · simp [examined_others others]
    · simp [listings_others others, ownRequests_others others]
    · simp [examined_others others, ownRequests_others others]
    · exact fun result ended => absurd ended (pending result)
    · exact fun result ended => absurd ended (pending result)
  | @begun front rest tail before start after p apart paged details few ended =>
    rw [List.append_cons, ← List.append_assoc] at dialogue served
    obtain ⟨_, whole, -⟩ := Unfailing.append ⟨wellFormed, dialogue, served⟩
    obtain ⟨w, first, second⟩ := whole.append
    have reach := sweepPages_reach second paged
    have nodup : (examined rest).Nodup :=
      reach.ascending.imp fun {a b} less => by rintro rfl; exact List.lt_irrefl a less
    have made : ownRequests (front ++ ⟨true, before, .now, start, after⟩ :: (rest ++ tail)) ≤
        ownRequests rest + 2 := ownRequests_begun apart few
    constructor
    · rwa [examined_begun apart details]
    · intro known covered
      have few : (examined rest).length ≤ known.card := by
        rw [← List.toFinset_card_of_nodup nodup]
        refine Finset.card_le_card fun locator seen => ?_
        obtain ⟨x, member, row, present⟩ := reach.known locator (List.mem_toFinset.1 seen)
        exact covered x (by simp [member]) locator row present
      have := reach.listings
      have := reach.requests
      rw [listings_begun apart details]
      omega
    · intro empty
      rw [empty] at paged
      obtain ⟨none, few⟩ := sweepPages_idle second paged
      rw [examined_begun apart details]
      exact ⟨none, by omega⟩
    · intro result finished unspent positive
      rw [listings_begun apart details] at unspent
      rw [examined_begun apart details]
      obtain ⟨⟨report, success, counted⟩, overdue⟩ :=
        sweepPages_covers positive second paged (ended result finished).1 unspent
      refine ⟨start, report, ownEffects_read apart, success, counted.trans (Nat.zero_add _), ?_⟩
      intro e present old undisturbed
      obtain ⟨stays, alone⟩ := undisturbed.begun apart first.dialogue
      exact List.count_eq_one_of_mem nodup (overdue e.locator e.row (stays.trans present)
        ((e.expired_iff _).2 old) rfl alone.left)
    · intro result finished unspent pages' unspent'
      rw [listings_begun apart details] at unspent unspent'
      obtain ⟨same, again⟩ := ended result finished
      exact again pages' (sweepPages_unbounded second paged same unspent unspent')

end

namespace Sample

def crowded : Vault :=
  { Vault.numbered 1000000 with
    ledger := ((∅ : Ledger).insert [0] (.fresh .medium 5)).insert [2] (.fresh .medium 5) }

/-- An entry is made between the two while the first is swept. -/
def squeezed : List Exchange × Program (Except BlobError SweepReport) × Vault :=
  (sweep ⟨10000, 1⟩ 9).run.play crowded
    (List.replicate 6 none ++ [some (.incubate [1] .medium 5)] ++ List.replicate 20 none)

theorem crowded_row {locator : Locator} {row : LedgerRow} (present : crowded.row locator = some row) :
    row = .fresh .medium 5 := by
  have found : (((∅ : Ledger).insert [0] (.fresh .medium 5)).insert [2] (.fresh .medium 5)).find?
      locator = some row := present
  rw [LocatorMap.find?_insert, LocatorMap.find?_insert] at found
  split at found
  · exact (Option.some.inj found).symm
  · split at found
    · exact (Option.some.inj found).symm
    · cases found

end Sample

/-- Both entries are examined once, and so is the one between them. -/
theorem squeezed_entry_examined :
    let xs := Sample.squeezed.1
    let report : SweepReport := { SweepReport.zero with examined := 3, staleRemoved := 3 }
    (∃ v', Dialogue Sample.crowded xs v' ∧ (sweep ⟨10000, 1⟩ 9).run.Joins xs (.done (.ok report))) ∧
      listings xs = 4 ∧ examined xs = [[0], [1], [2]] ∧ Undisturbed [2] xs ∧
      (examined xs).count [2] = 1 := by
  obtain ⟨dialogue, joins⟩ := (sweep ⟨10000, 1⟩ 9).run.play_dialogue Sample.crowded
    (List.replicate 6 none ++ [some (.incubate [1] .medium 5)] ++ List.replicate 20 none)
  have wellFormed : Sample.crowded.ledger.WellFormed := by
    intro locator row present
    rw [Sample.crowded_row present]
    exact .fresh rfl 5
  have alone : Undisturbed [2] Sample.squeezed.1 := .of_aside dialogue (by decide)
  have covered := overdue_examined_once wellFormed dialogue
    (fun x member _ _ => Program.play_served _ _ _ x member) joins
  obtain ⟨start, counts, begins, -, -, once⟩ := covered.complete _ rfl (by decide) (by decide)
  cases begins
  exact ⟨⟨_, dialogue, joins⟩, rfl, rfl, alone, once (.written [2] .medium 5) rfl (by decide) alone⟩

end BlobLifecycle
