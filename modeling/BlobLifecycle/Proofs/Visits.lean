import BlobLifecycle.Proofs.Dialogue
import BlobLifecycle.Proofs.Fate

/-! What the requests for an entry, and for a page of entries, come to among those of others:
each entry is looked up once and in order, with a few requests for each. -/
namespace BlobLifecycle

namespace Request

def lookup? : Request → Option Locator
  | entry locator => some locator
  | _ => none

def isListing : Request → Bool
  | listExpired .. => true
  | _ => false

/-- Neither looks up an entry nor lists any. -/
def IsDetail (r : Request) : Prop := r.lookup? = none ∧ r.isListing = false

end Request

namespace Exchange

def lookup? (x : Exchange) : Option Locator := if x.isOwn then x.request.lookup? else none

end Exchange

def examined (xs : List Exchange) : List Locator := xs.filterMap Exchange.lookup?

def listings (xs : List Exchange) : Nat := xs.countP fun x => x.isOwn && x.request.isListing

section

variable {xs ys : List Exchange}

theorem examined_own {x : Exchange} (own : x.isOwn = true) :
    examined (x :: xs) = x.request.lookup?.toList ++ examined xs := by
  unfold examined
  cases looked : x.request.lookup? <;> simp [Exchange.lookup?, own, looked]

theorem listings_own {x : Exchange} (own : x.isOwn = true) :
    listings (x :: xs) = listings xs + if x.request.isListing then 1 else 0 := by
  simp [listings, List.countP_cons, own]

theorem ownRequests_own {x : Exchange} (own : x.isOwn = true) :
    ownRequests (x :: xs) = ownRequests xs + 1 := by
  simp [ownRequests, own]

theorem examined_append : examined (xs ++ ys) = examined xs ++ examined ys := List.filterMap_append

theorem listings_append : listings (xs ++ ys) = listings xs + listings ys := List.countP_append

theorem ownRequests_append : ownRequests (xs ++ ys) = ownRequests xs + ownRequests ys :=
  List.countP_append

theorem examined_others (others : ∀ x ∈ xs, x.isOwn = false) : examined xs = [] :=
  List.filterMap_eq_nil_iff.2 fun x member => by simp [Exchange.lookup?, others x member]

theorem listings_others (others : ∀ x ∈ xs, x.isOwn = false) : listings xs = 0 :=
  List.countP_eq_zero.2 fun x member => by simp [others x member]

theorem examined_details (details : ∀ x ∈ xs, x.isOwn = true → x.request.IsDetail) :
    examined xs = [] := by
  refine List.filterMap_eq_nil_iff.2 fun x member => ?_
  unfold Exchange.lookup?
  split
  · next own => exact (details x member own).1
  · rfl

theorem listings_details (details : ∀ x ∈ xs, x.isOwn = true → x.request.IsDetail) :
    listings xs = 0 := by
  refine List.countP_eq_zero.2 fun x member => ?_
  cases own : x.isOwn with
  | false => simp
  | true => simp [(details x member own).2]

end

namespace Program

/-- At most so many requests, all of this kind, whatever the answers. -/
def Makes (kind : Request → Prop) : Program α → Nat → Prop
  | done _, _ => True
  | call r next, n => kind r ∧ ∃ m, n = m + 1 ∧ ∀ reply, (next reply).Makes kind m

theorem Makes.joins {kind : Request → Prop} {p q : Program α} {n : Nat} {xs : List Exchange}
    (makes : p.Makes kind n) (joins : p.Joins xs q) :
    ownRequests xs ≤ n ∧ ∀ x ∈ xs, x.isOwn = true → kind x.request := by
  induction xs generalizing p n with
  | nil => exact ⟨Nat.zero_le _, List.forall_mem_nil _⟩
  | cons x xs ih =>
    cases own : x.isOwn with
    | false =>
      obtain ⟨few, kinds⟩ := ih makes ((Joins.other_iff own).1 joins)
      exact ⟨by simpa [ownRequests, own] using few, by simpa [own] using kinds⟩
    | true =>
      obtain ⟨next, rfl, continues⟩ := (Joins.own_iff own).1 joins
      obtain ⟨here, m, rfl, rest⟩ := makes
      obtain ⟨few, kinds⟩ := ih (rest x.reply) continues
      refine ⟨?_, by simpa [here] using kinds⟩
      simpa [ownRequests, own] using few

theorem Makes.le {kind : Request → Prop} {p : Program α} {n m : Nat} (makes : p.Makes kind n)
    (le : n ≤ m) : p.Makes kind m := by
  induction p generalizing n m with
  | done a => trivial
  | call r next ih =>
    obtain ⟨here, k, rfl, rest⟩ := makes
    exact ⟨here, m - 1, by omega, fun reply => ih reply (rest reply) (by omega)⟩

end Program

namespace Entry

open Program Request

variable {e : Entry}

theorem reap_makes : e.reap.run.Makes IsDetail 3 := by
  have removal (outcome : EntryOutcome) :
      (do
        let _ ← Operation.ofReply (.ask (.remove e.locator))
        Operation.log (.reaped e.locator e.tier)
        return outcome : Operation EntryOutcome).run.Makes IsDetail 2 := by
    refine ⟨⟨rfl, rfl⟩, 1, rfl, fun reply => ?_⟩
    cases reply with
    | error error => trivial
    | ok removed => exact ⟨⟨rfl, rfl⟩, 0, rfl, fun _ => trivial⟩
  refine ⟨⟨rfl, rfl⟩, 2, rfl, fun reply => ?_⟩
  cases reply with
  | ok done => exact removal .reaped
  | error error =>
    show Makes _ (ExceptT.run (if error.isNotFound = true then _ else _)) _
    split
    · exact removal .staleRemoved
    · trivial

theorem condemnAndReap_makes (now : Timestamp) : (e.condemnAndReap now).run.Makes IsDetail 4 := by
  refine ⟨⟨rfl, rfl⟩, 3, rfl, fun reply => ?_⟩
  match reply with
  | .error error => trivial
  | .ok true => exact reap_makes
  | .ok false => trivial

theorem confirmLate_makes (holder : RecordField) :
    (e.confirmLate holder).run.Makes IsDetail 2 := by
  refine ⟨⟨rfl, rfl⟩, 1, rfl, fun reply => ?_⟩
  cases reply with
  | error error => trivial
  | ok released => exact ⟨⟨rfl, rfl⟩, 0, rfl, fun _ => trivial⟩

theorem judge_makes (now : Timestamp) : (e.judge now).run.Makes IsDetail 5 := by
  unfold judge
  split
  · exact reap_makes.le (by omega)
  · split
    · exact (condemnAndReap_makes now).le (by omega)
    · next holder _ =>
      refine ⟨⟨rfl, rfl⟩, 4, rfl, fun reply => ?_⟩
      cases reply with
      | error error => trivial
      | ok history =>
        show Makes _ (ExceptT.run (if _ then _ else _)) _
        split
        · exact (confirmLate_makes holder).le (by omega)
        · exact condemnAndReap_makes now

/-- The entry is looked up first. -/
theorem process_run (listed : Entry) (cutoff now : Timestamp) :
    ∃ next, (listed.process cutoff now).run = .call (.entry listed.locator) next ∧
      ∀ reply, (next reply).Makes IsDetail 5 := by
  refine ⟨_, rfl, fun reply => ?_⟩
  match reply with
  | .error error => trivial
  | .ok none => trivial
  | .ok (some e) =>
    show Makes _ (ExceptT.run (if _ then _ else _)) _
    split
    · trivial
    · exact judge_makes now

end Entry

section

open Program

variable {cutoff now : Timestamp} {xs : List Exchange}

/-- What the requests for one entry come to. -/
theorem process_joins {listed : Entry} {q : Program (Except BlobError EntryOutcome)}
    (joins : (listed.process cutoff now).run.Joins xs q) :
    listings xs = 0 ∧ ((examined xs = [] ∧ ownRequests xs = 0 ∧ ∀ outcome, q ≠ .done outcome) ∨
      examined xs = [listed.locator] ∧ ownRequests xs ≤ 6) := by
  obtain ⟨next, same, makes⟩ := listed.process_run cutoff now
  rw [same] at joins
  rcases joins.call with ⟨others, rfl⟩ | ⟨others, before, reply, after, rest, rfl, apart, joins⟩
  · exact ⟨listings_others others, .inl ⟨examined_others others, ownRequests_others others, nofun⟩⟩
  · obtain ⟨few, details⟩ := (makes reply).joins joins
    refine ⟨?_, .inr ⟨?_, ?_⟩⟩
    · rw [listings_append, listings_others apart, listings_own rfl, listings_details details]
      rfl
    · rw [examined_append, examined_others apart, examined_own rfl, examined_details details]
      rfl
    · rw [ownRequests_append, ownRequests_others apart, ownRequests_own rfl]
      omega

structure Handles (page : List Entry) (xs : List Exchange) : Prop where
  noListing : listings xs = 0
  inOrder : examined xs <+: page.map (·.locator)
  few : ownRequests xs ≤ 7 * (examined xs).length

/-- An entry of a page and then the others. -/
theorem Handles.cons {e : Entry} {page : List Entry} {first second : List Exchange}
    (noListing : listings first = 0) (looked : examined first = [e.locator])
    (few : ownRequests first ≤ 7) (rest : Handles page second) :
    Handles (e :: page) (first ++ second) := by
  constructor
  · rw [listings_append, noListing, rest.noListing]
  · rw [examined_append, looked]
    exact List.prefix_append_right_inj [e.locator] |>.2 rest.inOrder
  · rw [examined_append, ownRequests_append, looked]
    have := rest.few
    simp only [List.length_append, List.length_singleton]
    omega

theorem Handles.others {page : List Entry} (others : ∀ x ∈ xs, x.isOwn = false) :
    Handles page xs := by
  refine ⟨listings_others others, ?_, ?_⟩
  · rw [examined_others others]
    exact List.nil_prefix
  · rw [ownRequests_others others]
    exact Nat.zero_le _

theorem sweepPage_joins {page : List Entry} {report : SweepReport} {q : Program SweepReport}
    (joins : (sweepPage cutoff now page report).Joins xs q) :
    Handles page xs ∧ ∀ after, q = .done after →
      examined xs = page.map (·.locator) ∧ after.examined = report.examined + page.length := by
  induction page generalizing xs report with
  | nil =>
    obtain ⟨others, rfl⟩ := Joins.done joins
    refine ⟨.others others, fun after same => ?_⟩
    cases same
    exact ⟨examined_others others, rfl⟩
  | cons e page ih =>
    rcases Joins.bind joins with ⟨p', going, pending, rfl⟩ | ⟨first, second, outcome, rfl, ended, joins⟩
    · cases p' with
      | done outcome => exact absurd rfl (pending outcome)
      | call =>
        refine ⟨?_, nofun⟩
        obtain ⟨noListing, ⟨looked, few, -⟩ | ⟨looked, few⟩⟩ := process_joins going
        · exact ⟨noListing, by rw [looked]; exact List.nil_prefix, by rw [few]; exact Nat.zero_le _⟩
        · exact List.append_nil xs ▸ .cons noListing looked (by omega) (.others (List.forall_mem_nil _))
    · obtain ⟨noListing, ⟨-, -, open'⟩ | ⟨looked, few⟩⟩ := process_joins ended
      · exact absurd rfl (open' outcome)
      have counted : (report.count outcome).examined = report.examined + 1 := by
        unfold SweepReport.count
        split <;> rfl
      have goes {first second : List Exchange} (noListing : listings first = 0)
          (looked : examined first = [e.locator]) (few : ownRequests first ≤ 7)
          (joins : (sweepPage cutoff now page (report.count outcome)).Joins second q) :
          Handles (e :: page) (first ++ second) ∧ ∀ after, q = .done after →
            examined (first ++ second) = e.locator :: page.map (·.locator) ∧
            after.examined = report.examined + (page.length + 1) := by
        obtain ⟨handles, whole⟩ := ih joins
        refine ⟨.cons noListing looked few handles, fun after same => ?_⟩
        obtain ⟨all, count⟩ := whole after same
        rw [examined_append, looked, all, count, counted]
        exact ⟨rfl, by omega⟩
      cases outcome with
      | ok outcome => exact goes noListing looked (by omega) joins
      | error error =>
        rcases Joins.call (r := .log _) joins with
          ⟨others, rfl⟩ | ⟨others, before, reply, after, rest, rfl, apart, joins⟩
        · exact ⟨.cons noListing looked (by omega) (.others others), nofun⟩
        · rw [List.append_cons, ← List.append_assoc]
          refine goes ?_ ?_ ?_ joins
          · rw [listings_append, listings_append, noListing, listings_others apart]; rfl
          · rw [examined_append, examined_append, looked, examined_others apart]; rfl
          · rw [ownRequests_append, ownRequests_append, ownRequests_others apart]
            exact Nat.add_le_add few (Nat.le_refl 1)

/-- A page concerns its own locators only. -/
theorem sweepPage_avoids {page : List Entry} {locator : Locator}
    (absent : locator ∉ page.map (·.locator)) (report : SweepReport) :
    (sweepPage cutoff now page report).Asks (Avoids locator) := by
  induction page generalizing report with
  | nil => trivial
  | cons e page ih =>
    rw [List.map_cons, List.mem_cons, not_or] at absent
    refine (e.process_avoids (fun same => absent.1 same.symm) cutoff now).bind fun outcome => ?_
    cases outcome with
    | ok outcome => exact ih absent.2 _
    | error error => exact ⟨⟨nofun, nofun⟩, fun _ _ => ih absent.2 _⟩

end

end BlobLifecycle
