import BlobLifecycle.Proofs.Resumption

/-! A sweep treats each overdue entry as if it were the only one. Whatever the size of its pages, it
ends as if every entry had been processed once on its own, in any order. -/
namespace BlobLifecycle

namespace Ledger

variable {ledger ledger' : Ledger} {locator : Locator}

theorem condemn_congr {e : Entry} (same : ledger'.find? e.locator = ledger.find? e.locator)
    (time : Timestamp) : (ledger'.condemn e time).1 = (ledger.condemn e time).1 ∧
      (ledger'.condemn e time).2.find? e.locator = (ledger.condemn e time).2.find? e.locator := by
  simp only [condemn, same]
  split
  · split <;> simp [LocatorMap.find?_modify, same]
  · exact ⟨rfl, same⟩

theorem release_congr (same : ledger'.find? locator = ledger.find? locator) (holder : RecordField) :
    (ledger'.release locator holder).1 = (ledger.release locator holder).1 ∧
      (ledger'.release locator holder).2.find? locator =
        (ledger.release locator holder).2.find? locator := by
  simp only [release, same]
  split
  · split <;> simp [LocatorMap.find?_erase, same]
  · exact ⟨rfl, same⟩

theorem remove_congr (same : ledger'.find? locator = ledger.find? locator) :
    (ledger'.remove locator).1 = (ledger.remove locator).1 ∧
      (ledger'.remove locator).2.find? locator = (ledger.remove locator).2.find? locator := by
  simp [remove, LocatorMap.contains, LocatorMap.find?_erase, same]

end Ledger

namespace Program

variable {answer answer' : (r : Request) → StateM Vault r.Reply} {v v' : Vault}

theorem interpret_call {r : Request} (next : r.Reply → Program α) :
    (call r next).interpret answer v = (next (answer r v).1).interpret answer (answer r v).2 := rfl

theorem interpret_bind_run (p : Program α) (f : α → Program β) :
    (p >>= f).interpret answer v =
      (f (p.interpret answer v).1).interpret answer (p.interpret answer v).2 := by
  rw [interpret_bind]
  rfl

/-- Two runs whose states stay related are answered alike and end alike. -/
theorem Asks.alike {kind : Request → Prop} {p : Program α} (asks : p.Asks kind)
    {related : Vault → Vault → Prop}
    (step : ∀ r v v', kind r → related v v' → r.Credible (answer r v).1 ∧
      (answer' r v').1 = (answer r v).1 ∧ related (answer r v).2 (answer' r v').2)
    (now : related v v') :
    (p.interpret answer' v').1 = (p.interpret answer v).1 ∧
      related (p.interpret answer v).2 (p.interpret answer' v').2 := by
  induction p generalizing v v' with
  | done a => exact ⟨rfl, now⟩
  | call r next ih =>
    obtain ⟨credible, reply, after⟩ := step r v v' asks.1 now
    rw [interpret_call, interpret_call, reply]
    exact ih _ (asks.2 _ credible) after

end Program

namespace Faults

variable (faults : Faults)

def treat (cutoff now : Timestamp) (e : Entry) : StateM Vault (Except BlobError EntryOutcome) :=
  (e.process cutoff now).run.interpret faults.answer

def treatEach (cutoff now : Timestamp) : List Entry → SweepReport → Vault → SweepReport × Vault
  | [], report, v => (report, v)
  | e :: es, report, v =>
    let after := faults.treat cutoff now e v
    treatEach cutoff now es (report.count after.1) after.2

/-- Two vaults, each with its failures, are the same as far as an entry is concerned. -/
structure Matches (faults' : Faults) (e : Entry) (v v' : Vault) : Prop where
  root : v'.large.root = v.large.root
  isBlocked : v'.large.isBlocked = v.large.isBlocked
  cell : v'.cell e.locator = v.cell e.locator
  deletion : faults'.deletion e.tier e.locator = faults.deletion e.tier e.locator
  history : ∀ holder, e.claim = some holder →
    (faults'.answer (.fieldHistory holder.record holder.field) v').1 =
      (faults.answer (.fieldHistory holder.record holder.field) v).1

section

variable {faults} {faults' : Faults} {cutoff now : Timestamp} {v v' : Vault} {e : Entry}

/-- A request that leaves the stores' settings, the same cell and the records as they are. -/
theorem Matches.after (matched : faults.Matches faults' e v v') {r : Request}
    (root : (faults'.answer r v').2.large.root = (faults.answer r v).2.large.root)
    (isBlocked : (faults'.answer r v').2.large.isBlocked = (faults.answer r v).2.large.isBlocked)
    (cell : (faults'.answer r v').2.cell e.locator = (faults.answer r v).2.cell e.locator) :
    faults.Matches faults' e (faults.answer r v).2 (faults'.answer r v').2 where
  root := root
  isBlocked := isBlocked
  cell := cell
  deletion := matched.deletion
  history := fun holder claim => by
    have keeps := (faults.answer_outcome r v).keeps
    have keeps' := (faults'.answer_outcome r v').keeps
    rw [faults.history_congr keeps.repository, faults'.history_congr keeps'.repository]
    exact matched.history holder claim

theorem Matches.ledger (matched : faults.Matches faults' e v v') {ledger ledger' : Ledger}
    (row : ledger'.find? e.locator = ledger.find? e.locator) :
    faults.Matches faults' e { v with ledger } { v' with ledger := ledger' } where
  root := matched.root
  isBlocked := matched.isBlocked
  cell := by
    obtain ⟨-, medium, large⟩ := Cell.mk.inj matched.cell
    exact Cell.ext row medium large
  deletion := matched.deletion
  history := fun holder claim => by
    have same : Vault.repository { v with ledger } = v.repository := rfl
    have same' : Vault.repository { v' with ledger := ledger' } = v'.repository := rfl
    rw [faults.history_congr same, faults'.history_congr same']
    exact matched.history holder claim

/-- What is asked about the entry is answered alike, and the vaults are the same for it after. -/
theorem Matches.step {r : Request} (matched : faults.Matches faults' e v v')
    (concern : e.Concern r) : (faults'.answer r v').1 = (faults.answer r v).1 ∧
      faults.Matches faults' e (faults.answer r v).2 (faults'.answer r v').2 := by
  obtain ⟨row, medium, large⟩ := Cell.mk.inj matched.cell
  cases r with
  | log event => exact ⟨rfl, matched.after matched.root matched.isBlocked matched.cell⟩
  | condemn observed time =>
    cases concern
    obtain ⟨reply, row'⟩ := Ledger.condemn_congr row time
    exact ⟨congrArg Except.ok reply, matched.ledger row'⟩
  | remove locator =>
    cases concern
    obtain ⟨reply, row'⟩ := Ledger.remove_congr row
    exact ⟨congrArg Except.ok reply, matched.ledger row'⟩
  | release locator holder =>
    cases concern
    obtain ⟨reply, row'⟩ := Ledger.release_congr row holder
    exact ⟨congrArg Except.ok reply, matched.ledger row'⟩
  | delete tier locator =>
    obtain ⟨rfl, rfl⟩ := concern
    obtain ⟨reply, medium', large'⟩ :=
      faults.delete_congr matched.deletion matched.root matched.isBlocked medium large
    obtain ⟨alike, ledger⟩ := faults.delete_alike v e.tier e.locator
    obtain ⟨alike', ledger'⟩ := faults'.delete_alike v' e.tier e.locator
    refine ⟨reply, matched.after ?_ ?_ (Cell.ext ?_ medium' large')⟩
    · rw [alike.root, alike'.root, matched.root]
    · rw [alike.isBlocked, alike'.isBlocked, matched.isBlocked]
    · simp only [Vault.cell, Vault.row, ledger, ledger']
      exact row
  | fieldHistory record field =>
    have silent (faults : Faults) (v : Vault) :
        (faults.answer (.fieldHistory record field) v).2 = v :=
      congrArg Prod.snd (faults.history_silent v record field)
    refine ⟨matched.history _ concern, ?_⟩
    rw [silent, silent]
    exact matched
  | _ => exact concern.elim

theorem treat_present (present : v.row e.locator = some e.row) : faults.treat cutoff now e v =
    if e.isFresh cutoff then (.ok .skipped, v)
    else (e.judge now).run.interpret faults.answer v := by
  have answered : faults.answer (.entry e.locator) v = (.ok (some e), v) :=
    congrArg (·, v) (Ledger.get_eq_some.2 ⟨rfl, present⟩)
  have run : faults.treat cutoff now e v = (ExceptT.run (if e.isFresh cutoff then return .skipped
      else e.judge now)).interpret faults.answer v := by
    refine (Program.interpret_call (α := Except BlobError EntryOutcome) _).trans ?_
    rw [answered]
    rfl
  rw [run]
  split <;> rfl

/-- What comes of an entry depends on what is the same for it, and on nothing else. -/
theorem treat_congr (cutoff now : Timestamp) (matched : faults.Matches faults' e v v')
    (present : v.row e.locator = some e.row) :
    (faults'.treat cutoff now e v').1 = (faults.treat cutoff now e v).1 ∧
      (faults'.treat cutoff now e v').2.cell e.locator =
        (faults.treat cutoff now e v).2.cell e.locator := by
  have present' : v'.row e.locator = some e.row := (congrArg Cell.row matched.cell).trans present
  rw [treat_present present, treat_present present']
  split
  · exact ⟨rfl, matched.cell⟩
  · have step (r : Request) (v v' : Vault) (concern : e.Concern r)
        (matched : faults.Matches faults' e v v') :=
      And.intro (faults.answer_outcome r v).credible (matched.step concern)
    obtain ⟨outcome, after⟩ := (e.judge_asks now).alike step matched
    exact ⟨outcome, after.cell⟩

end

end Faults

structure Vault.Overdue (v : Vault) (cutoff : Timestamp) (e : Entry) : Prop where
  present : v.row e.locator = some e.row
  late : e.lastActivity < cutoff

theorem Vault.Overdue.unique {v : Vault} {cutoff : Timestamp} {e e' : Entry}
    (overdue : v.Overdue cutoff e) (overdue' : v.Overdue cutoff e')
    (same : e'.locator = e.locator) : e' = e := by
  have read : v.ledger.get e.locator = .ok (some e) := Ledger.get_eq_some.2 ⟨rfl, overdue.present⟩
  have read' : v.ledger.get e.locator = .ok (some e') :=
    Ledger.get_eq_some.2 ⟨same, same ▸ overdue'.present⟩
  simpa using read'.symm.trans read

theorem SweepReport.count_comm (r : SweepReport) (a b : Except BlobError EntryOutcome) :
    (r.count a).count b = (r.count b).count a := by
  cases a with
  | error e => cases b with
    | error e' => rfl
    | ok b => cases b <;> rfl
  | ok a => cases b with
    | error e' => cases a <;> rfl
    | ok b => cases a <;> cases b <;> rfl

namespace Faults

variable (faults : Faults)

/-- The report on these entries, if each of them is the first one to be treated. -/
def tally (cutoff now : Timestamp) (v : Vault) (es : List Entry) (report : SweepReport) :
    SweepReport :=
  es.foldl (fun report e => report.count (faults.treat cutoff now e v).1) report

/-- These overdue entries were treated, each as if it were the first one, and no others. -/
structure Treated (cutoff now : Timestamp) (es : List Entry) (v v' : Vault) : Prop where
  course : faults.Course cutoff now v v'
  overdue : ∀ e ∈ es, v.Overdue cutoff e
  treated : ∀ e ∈ es, v'.cell e.locator = (faults.treat cutoff now e v).2.cell e.locator
  untouched : ∀ locator, (∀ e ∈ es, e.locator ≠ locator) → v'.cell locator = v.cell locator

section

variable {faults} {cutoff now : Timestamp} {v v' v'' : Vault} {e : Entry} {es es' : List Entry}

theorem tally_perm (perm : es.Perm es') (report : SweepReport) :
    faults.tally cutoff now v es report = faults.tally cutoff now v es' report :=
  perm.foldl_eq' (fun _ _ _ _ report => report.count_comm _ _) report

theorem tally_append (report : SweepReport) : faults.tally cutoff now v (es ++ es') report =
    faults.tally cutoff now v es' (faults.tally cutoff now v es report) := List.foldl_append

namespace Treated

theorem start (v : Vault) : faults.Treated cutoff now [] v v :=
  ⟨.refl v, List.forall_mem_nil _, List.forall_mem_nil _, fun _ _ => rfl⟩

theorem told (treated : faults.Treated cutoff now es v v') (event : Event) :
    faults.Treated cutoff now es v (faults.answer (.log event) v').2 :=
  ⟨treated.course.trans (course_log event), treated.overdue, treated.treated, treated.untouched⟩

/-- The locators of other entries are as they were. -/
theorem waiting (treated : faults.Treated cutoff now es v v') (overdue : v.Overdue cutoff e)
    (waits : e ∉ es) : v'.cell e.locator = v.cell e.locator := by
  apply treated.untouched
  intro e' member same
  have one := overdue.unique (treated.overdue e' member) same
  exact waits (one ▸ member)

theorem next (treated : faults.Treated cutoff now es v v') (wellFormed : v.ledger.WellFormed)
    (overdue : v.Overdue cutoff e) (once : (es ++ e :: es').Nodup) :
    (faults.treat cutoff now e v').1 = (faults.treat cutoff now e v).1 ∧
      faults.Treated cutoff now (es ++ [e]) v (faults.treat cutoff now e v').2 := by
  have waits : e ∉ es := fun member =>
    (List.nodup_cons.1 (List.nodup_middle.1 once)).1 (List.mem_append_left _ member)
  have same := treated.waiting overdue waits
  have matched : faults.Matches faults e v v' := by
    have alike := treated.course.alike
    refine ⟨alike.root, alike.isBlocked, same, rfl, fun _ _ => ?_⟩
    exact faults.history_congr alike.repository _ _
  obtain ⟨outcome, cell⟩ := treat_congr cutoff now matched overdue.present
  have due (row : LedgerRow) (present : v'.row e.locator = some row) : row.Expired cutoff := by
    cases present.symm.trans ((congrArg Cell.row same).trans overdue.present)
    exact (e.expired_iff cutoff).2 overdue.late
  have settles : faults.Settles cutoff now e.locator (e.process cutoff now).run v' :=
    e.process_settles (treated.course.wellFormed wellFormed) due
  have advance : faults.Advance cutoff now e.locator v' (faults.treat cutoff now e v').2 :=
    settles.run.1
  refine ⟨outcome, treated.course.trans advance.course, ?_, ?_, ?_⟩
  · simpa using fun e' member => member.elim (treated.overdue e') (fun same => same ▸ overdue)
  · intro e' member
    rcases List.mem_append.1 member with before | last
    · have apart : e'.locator ≠ e.locator := fun same =>
        waits (overdue.unique (treated.overdue e' before) same ▸ before)
      rw [advance.apart _ apart, treated.treated e' before]
    · rw [List.mem_singleton.1 last]
      exact cell
  · intro locator apart
    have others (e' : Entry) (member : e' ∈ es) := apart e' (List.mem_append_left _ member)
    rw [advance.apart locator (apart e (by simp)).symm, treated.untouched locator others]

theorem same_left (treated : faults.Treated cutoff now es v v')
    (treated' : faults.Treated cutoff now es' v v'') (members : ∀ e, e ∈ es ↔ e ∈ es') :
    v'.ledger = v''.ledger ∧ v'.medium = v''.medium ∧ v'.large = v''.large := by
  have cell (locator : Locator) : v'.cell locator = v''.cell locator := by
    by_cases chosen : ∃ e ∈ es, e.locator = locator
    · obtain ⟨e, member, rfl⟩ := chosen
      rw [treated.treated e member, treated'.treated e ((members e).1 member)]
    · push Not at chosen
      rw [treated.untouched locator chosen]
      exact (treated'.untouched locator fun e member => chosen e ((members e).2 member)).symm
  have alike := treated.course.alike
  have alike' := treated'.course.alike
  refine ⟨LocatorMap.eq_of_find? fun key => congrArg Cell.row (cell key),
    LocatorMap.eq_of_find? fun key => congrArg Cell.medium (cell key), ?_⟩
  apply LargeStore.eq_of_parts (alike.root.trans alike'.root.symm)
    (alike.isBlocked.trans alike'.isBlocked.symm)
  exact LocatorMap.eq_of_find? fun key => congrArg Cell.large (cell key)

end Treated

theorem treatEach_treats (treated : faults.Treated cutoff now es v v')
    (wellFormed : v.ledger.WellFormed) (overdue : ∀ e ∈ es', v.Overdue cutoff e)
    (once : (es ++ es').Nodup) (report : SweepReport) :
    (faults.treatEach cutoff now es' report v').1 = faults.tally cutoff now v es' report ∧
      faults.Treated cutoff now (es ++ es') v (faults.treatEach cutoff now es' report v').2 := by
  induction es' generalizing es v' report with
  | nil =>
    rw [List.append_nil]
    exact ⟨rfl, treated⟩
  | cons e es' ih =>
    obtain ⟨here, others⟩ := List.forall_mem_cons.1 overdue
    obtain ⟨outcome, after⟩ := treated.next wellFormed here once
    rw [List.append_cons] at once ⊢
    rw [treatEach, outcome]
    exact ih after others once _

/-- The first entry of a page is treated, with a message perhaps, before the others. -/
theorem sweepPage_first (faults : Faults) (cutoff now : Timestamp) (e : Entry) (rest : List Entry)
    (report : SweepReport) (v : Vault) :
    let after := faults.treat cutoff now e v
    let others := sweepPage cutoff now rest (report.count after.1)
    (sweepPage cutoff now (e :: rest) report).interpret faults.answer v =
        others.interpret faults.answer after.2 ∨
      ∃ event, (sweepPage cutoff now (e :: rest) report).interpret faults.answer v =
        others.interpret faults.answer (faults.answer (.log event) after.2).2 := by
  simp only [sweepPage, Program.interpret_bind_run, treat]
  cases ((e.process cutoff now).run.interpret faults.answer v).1 with
  | ok outcome => exact .inl rfl
  | error error => exact .inr ⟨_, rfl⟩

theorem sweepPage_treats (treated : faults.Treated cutoff now es v v')
    (wellFormed : v.ledger.WellFormed) (overdue : ∀ e ∈ es', v.Overdue cutoff e)
    (once : (es ++ es').Nodup) (report : SweepReport) :
    let after := (sweepPage cutoff now es' report).interpret faults.answer v'
    after.1 = faults.tally cutoff now v es' report ∧
      faults.Treated cutoff now (es ++ es') v after.2 := by
  induction es' generalizing es v' report with
  | nil =>
    rw [List.append_nil]
    exact ⟨rfl, treated⟩
  | cons e es' ih =>
    obtain ⟨here, others⟩ := List.forall_mem_cons.1 overdue
    obtain ⟨outcome, after⟩ := treated.next wellFormed here once
    rw [List.append_cons] at once ⊢
    rcases sweepPage_first faults cutoff now e es' report v' with silent | ⟨event, told⟩
    · rw [silent, outcome]
      exact ih after others once _
    · rw [told, outcome]
      exact ih (after.told event) others once _

structure Shows (cutoff : Timestamp) (limit : Nat) (es page : List Entry) (v : Vault) : Prop where
  overdue : ∀ e ∈ es ++ page, v.Overdue cutoff e
  once : (es ++ page).Nodup
  /-- Those that are left come after a full page. -/
  rest : ∀ e, v.Overdue cutoff e → e ∉ es ++ page →
    limit ≤ page.length ∧ ∀ e' ∈ page, e'.locator < e.locator

section

variable {cursor : Option Locator} {limit : Nat} {page : List Entry} {last : Entry}

theorem Treated.shows (treated : faults.Treated cutoff now es v v') (once : es.Nodup)
    (reached : ∀ e, e ∈ es ↔ v.Overdue cutoff e ∧ Ledger.isAfter cursor e.locator = false)
    (lists : Lists v' cutoff cursor limit page) : Shows cutoff limit es page v := by
  have beyond (e : Entry) (listed : e ∈ page) (e' : Entry) (member : e' ∈ es) :
      e'.locator ≠ e.locator := by
    intro same
    have after := lists.after e listed
    rw [← same, ((reached e').1 member).2] at after
    cases after
  -- The listing is of the rows on the way, but those after the cursor are still the first ones.
  have overdue (e : Entry) (listed : e ∈ page) : v.Overdue cutoff e := by
    have same := treated.untouched e.locator (beyond e listed)
    refine ⟨(congrArg Cell.row same).symm.trans (lists.present e listed), ?_⟩
    exact (e.expired_iff cutoff).1 (lists.overdue e listed)
  refine ⟨fun e member => ?_, ?_, fun e due left => ?_⟩
  · exact (List.mem_append.1 member).elim (treated.overdue e) (overdue e)
  · have apart : (page.map (·.locator)).Nodup :=
      lists.ascending.imp fun {a b} (less : a < b) (same : a = b) => List.lt_irrefl b (same ▸ less)
    refine List.nodup_append.2 ⟨once, apart.of_map, fun e' member e listed same => ?_⟩
    exact beyond e listed e' member (congrArg Entry.locator same)
  · simp only [List.mem_append, not_or] at left
    have after : Ledger.isAfter cursor e.locator = true := by
      simpa [reached, due] using left.1
    have present : v'.row e.locator = some e.row :=
      (congrArg Cell.row (treated.waiting due left.1)).trans due.present
    have expired := (e.expired_iff cutoff).2 due.late
    refine lists.complete e.locator e.row present expired after fun listed => ?_
    obtain ⟨e', listed, same⟩ := List.mem_map.1 listed
    exact left.2 (due.unique (overdue e' listed) same ▸ listed)

theorem Shows.whole (shows : Shows cutoff limit es page v) (positive : 0 < limit)
    (short : page = [] ∨ page.length < limit) (e : Entry) :
    e ∈ es ++ page ↔ v.Overdue cutoff e := by
  refine ⟨shows.overdue e, fun overdue => by_contra fun left => ?_⟩
  obtain ⟨full, -⟩ := shows.rest e overdue left
  rcases short with rfl | short
  · simp at full
    omega
  · omega

theorem Shows.reached (shows : Shows cutoff limit es page v)
    (reached : ∀ e, e ∈ es ↔ v.Overdue cutoff e ∧ Ledger.isAfter cursor e.locator = false)
    (lists : Lists v' cutoff cursor limit page) (ends : page.getLast? = some last) (e : Entry) :
    e ∈ es ++ page ↔
      v.Overdue cutoff e ∧ Ledger.isAfter (some last.locator) e.locator = false := by
  constructor
  · refine fun member => ⟨shows.overdue e member, ?_⟩
    rcases List.mem_append.1 member with before | listed
    · apply eq_false_of_ne_true
      intro beyond
      simpa [lists.further ends beyond] using ((reached e).1 before).2
    · exact decide_eq_false (lists.le_last ends listed)
  · rintro ⟨overdue, passed⟩
    by_contra left
    have beyond := (shows.rest e overdue left).2 last (Lists.last_mem ends)
    simp [Ledger.isAfter, beyond] at passed

end

/-- A page is listed and swept, and others come after it if it was full. -/
theorem sweepPages_run {batchSize pages : Nat} {cursor : Option Locator} {page : List Entry}
    (given : faults.answer (.listExpired cutoff cursor batchSize) v = (.ok page, v))
    (report : SweepReport) :
    let after := (sweepPage cutoff now page report).interpret faults.answer v
    (sweepPages batchSize cutoff now (pages + 1) cursor report).run.interpret faults.answer v =
      match page.getLast? with
      | none => (.ok after.1, after.2)
      | some last =>
        if page.length < batchSize then (.ok after.1, after.2)
        else (sweepPages batchSize cutoff now pages (some last.locator) after.1).run.interpret
          faults.answer after.2 := by
  intro after
  refine (Program.interpret_call (α := Except BlobError SweepReport) _).trans ?_
  rw [given]
  refine (congrFun (congrArg _ (Operation.run_lift_bind _ _)) v).trans ?_
  rw [Program.interpret_bind_run]
  cases page.getLast? with
  | none => rfl
  | some last =>
    dsimp only
    split <;> rfl

/-- Page after page all overdue entries are treated, each once, if the bound of pages leaves room
for the rows. -/
theorem sweepPages_treats {batchSize pages : Nat} {cursor : Option Locator}
    (positive : 0 < batchSize) (wellFormed : v.ledger.WellFormed)
    (treated : faults.Treated cutoff now es v v') (once : es.Nodup)
    (reached : ∀ e, e ∈ es ↔ v.Overdue cutoff e ∧ Ledger.isAfter cursor e.locator = false)
    (enough : v.ledger.keys.countP (Ledger.isAfter cursor) ≤ pages) :
    let after := (sweepPages batchSize cutoff now pages cursor
      (faults.tally cutoff now v es .zero)).run.interpret faults.answer v'
    ∃ all : List Entry, all.Nodup ∧ (∀ e, e ∈ all ↔ v.Overdue cutoff e) ∧
      after.1 = .ok (faults.tally cutoff now v all .zero) ∧
      faults.Treated cutoff now all v after.2 := by
  have known (e : Entry) (overdue : v.Overdue cutoff e) : e.locator ∈ v.ledger.keys :=
    List.mem_map.2 ⟨(e.locator, e.row), LocatorMap.find?_eq_some_iff.1 overdue.present, rfl⟩
  induction pages generalizing es v' cursor with
  | zero =>
    refine ⟨es, once, fun e => ⟨treated.overdue e, fun overdue => ?_⟩, rfl, treated⟩
    have none := List.countP_eq_zero.1 (Nat.le_zero.1 enough) e.locator (known e overdue)
    exact (reached e).2 ⟨overdue, eq_false_of_ne_true none⟩
  | succ pages ih =>
    have sound := treated.course.wellFormed wellFormed
    obtain ⟨page, given⟩ := sound.listExpired cutoff cursor batchSize
    have answered : faults.answer (.listExpired cutoff cursor batchSize) v' = (.ok page, v') := by
      rw [← given]
      rfl
    have lists : Lists v' cutoff cursor batchSize page := Vault.lists given
    have shows := treated.shows once reached lists
    obtain ⟨counts, after⟩ := sweepPage_treats treated wellFormed
      (fun e listed => shows.overdue e (List.mem_append_right es listed)) shows.once
      (faults.tally cutoff now v es .zero)
    rw [← tally_append] at counts
    rw [sweepPages_run answered, counts]
    split
    · next empty =>
      have short := List.getLast?_eq_none_iff.1 empty
      exact ⟨_, shows.once, shows.whole positive (.inl short), rfl, after⟩
    · next last ends =>
      split
      · next short => exact ⟨_, shows.once, shows.whole positive (.inr short), rfl, after⟩
      · have overdue := shows.overdue last (List.mem_append_right es (Lists.last_mem ends))
        have fewer := lists.fewer ends (known last overdue)
        exact ih after shows.once (shows.reached reached lists ends) (by omega)

/-- A sweep treats all overdue entries, each once. -/
theorem sweep_treats (faults : Faults) (settings : SweepSettings) {pages : Nat}
    (positive : 0 < settings.batchSize) (wellFormed : v.ledger.WellFormed)
    (enough : v.ledger.size ≤ pages) :
    let cutoff := v.clock.back settings.graceInterval
    let after := (sweep settings pages).run.interpret faults.answer v
    ∃ all : List Entry, all.Nodup ∧ (∀ e, e ∈ all ↔ v.Overdue cutoff e) ∧
      after.1 = .ok (faults.tally cutoff v.clock v all .zero) ∧
      faults.Treated cutoff v.clock all v after.2 := by
  intro cutoff
  obtain ⟨finish, run, message⟩ := sweep_run settings
  have room : v.ledger.keys.countP (Ledger.isAfter none) ≤ pages := by
    apply Nat.le_trans List.countP_le_length
    exact (List.length_map _).trans_le enough
  have begun : faults.Treated cutoff v.clock [] v v := .start v
  obtain ⟨all, once, members, counts, treated⟩ :=
    sweepPages_treats positive wellFormed begun .nil (by simp [Ledger.isAfter]) room
  rw [run, Program.interpret_call, show faults.answer .now v = (v.clock, v) from rfl]
  rw [Program.interpret_bind_run]
  refine ⟨all, once, members, ?_⟩
  rcases message _ with silent | ⟨event, told⟩
  · rw [silent]
    exact ⟨counts, treated⟩
  · rw [told]
    exact ⟨counts, treated.told event⟩

theorem sweep_leaves (faults : Faults) (settings : SweepSettings) {pages : Nat}
    (positive : 0 < settings.batchSize) (wellFormed : v.ledger.WellFormed)
    (enough : v.ledger.size ≤ pages)
    (overdue : v.Overdue (v.clock.back settings.graceInterval) e) :
    ((sweep settings pages).run.interpret faults.answer v).2.cell e.locator =
      (faults.treat (v.clock.back settings.graceInterval) v.clock e v).2.cell e.locator := by
  obtain ⟨all, -, members, -, treated⟩ := faults.sweep_treats settings positive wellFormed enough
  exact treated.treated e ((members e).2 overdue)

end

end Faults

/-- A sweep treats every overdue entry on its own. Whatever the size of its pages, it reports and
leaves what the same entries come to one by one, in any order. What comes of an entry is what would
come of it first, and the same in any other sweep for which the entry is the same. -/
theorem sweep_treats_each (faults : Faults) (grace : Int) {v : Vault} {es : List Entry}
    (wellFormed : v.ledger.WellFormed) (once : es.Nodup)
    (members : ∀ e, e ∈ es ↔ v.Overdue (v.clock.back grace) e) :
    let cutoff := v.clock.back grace
    let each := faults.treatEach cutoff v.clock es .zero v
    (∀ batchSize pages, 0 < batchSize → v.ledger.size ≤ pages →
      let swept := (sweep ⟨grace, batchSize⟩ pages).run.interpret faults.answer v
      swept.1 = .ok each.1 ∧ swept.2.ledger = each.2.ledger ∧ swept.2.medium = each.2.medium ∧
        swept.2.large = each.2.large) ∧
      each.1 = es.foldl (fun report e => report.count (faults.treat cutoff v.clock e v).1) .zero ∧
      (∀ e ∈ es, each.2.cell e.locator = (faults.treat cutoff v.clock e v).2.cell e.locator) ∧
      (∀ locator, (∀ e ∈ es, e.locator ≠ locator) → each.2.cell locator = v.cell locator) ∧
      ∀ e ∈ es, ∀ faults' v', faults.Matches faults' e v v' →
        (faults'.treat cutoff v.clock e v').1 = (faults.treat cutoff v.clock e v).1 ∧
          ∀ batchSize pages, v'.ledger.WellFormed → v'.clock = v.clock → 0 < batchSize →
            v'.ledger.size ≤ pages →
            let swept' := (sweep ⟨grace, batchSize⟩ pages).run.interpret faults'.answer v'
            swept'.2.cell e.locator = each.2.cell e.locator := by
  intro cutoff each
  have overdue (e : Entry) (member : e ∈ es) : v.Overdue cutoff e := (members e).1 member
  obtain ⟨counts, treated⟩ := Faults.treatEach_treats (.start v) wellFormed overdue once .zero
  refine ⟨fun batchSize pages positive enough => ?_, counts, treated.treated, treated.untouched, ?_⟩
  · obtain ⟨all, once', members', counts', treated'⟩ :=
      faults.sweep_treats ⟨grace, batchSize⟩ positive wellFormed enough
    have same (e : Entry) : e ∈ all ↔ e ∈ es := (members' e).trans (members e).symm
    have perm : all.Perm es := (List.perm_ext_iff_of_nodup once' once).2 same
    refine ⟨?_, treated'.same_left treated same⟩
    rw [counts', Faults.tally_perm perm, counts]
  · intro e member faults' v' matched
    obtain ⟨outcome, cell⟩ := Faults.treat_congr cutoff v.clock matched (overdue e member).present
    refine ⟨outcome, fun batchSize pages wellFormed' clock positive enough => ?_⟩
    have present : v'.row e.locator = some e.row :=
      (congrArg Cell.row matched.cell).trans (overdue e member).present
    have overdue' : v'.Overdue (v'.clock.back grace) e := ⟨present, clock ▸ (overdue e member).late⟩
    have left := faults'.sweep_leaves ⟨grace, batchSize⟩ positive wellFormed' enough overdue'
    rw [clock] at left
    exact left.trans (cell.trans (treated.treated e member).symm)

namespace Sample

def claimed : Entry :=
  { Entry.written [1] .medium 5 with claim := some ⟨record, field⟩, claimedAt := some 6 }

def faultless : Faults := ⟨fun _ _ => none, fun _ _ => none⟩

/-- Nothing but the content that was never claimed. -/
def lonely : Vault :=
  { Vault.numbered 1000000 with
    ledger := (∅ : Ledger).insert [0] (.fresh .medium 5)
    medium := (∅ : MediumStore).insert [0] ⟨"a/b", [7], 5⟩ }

theorem neglected_overdue (e : Entry) : e ∈ [claimed, entry] ↔
    neglected.Overdue (neglected.clock.back 10000) e := by
  have first : neglected.Overdue (neglected.clock.back 10000) entry := ⟨rfl, by decide⟩
  have second : neglected.Overdue (neglected.clock.back 10000) claimed := ⟨rfl, by decide⟩
  constructor
  · simp only [List.mem_cons, List.not_mem_nil, or_false]
    rintro (rfl | rfl)
    · exact second
    · exact first
  · intro overdue
    have found : (((∅ : Ledger).insert [0] (.fresh .medium 5)).insert [1]
        ((LedgerRow.fresh .medium 5).claimFor ⟨record, field⟩ 6)).find? e.locator = some e.row :=
      overdue.present
    rw [LocatorMap.find?_insert, LocatorMap.find?_insert] at found
    split at found
    · next same => simp [second.unique overdue same]
    · split at found
      · next same => simp [first.unique overdue same]
      · cases found

end Sample

open Sample in
/-- The claimed entry fails and the other one is reaped, in pages of any size, and this is so too if
nothing else is there and nothing fails. -/
theorem neglected_entries_treated_each :
    (∀ batchSize pages, 0 < batchSize → 2 ≤ pages →
      let swept := (sweep ⟨10000, batchSize⟩ pages).run.interpret unreadable.answer neglected
      let each := unreadable.treatEach 990000 1000000 [claimed, entry] .zero neglected
      swept.1 = .ok { SweepReport.zero with examined := 2, reaped := 1, failed := 1 } ∧
        swept.2.ledger = each.2.ledger ∧ swept.2.medium = each.2.medium ∧
        swept.2.large = each.2.large) ∧
      (faultless.treat 990000 1000000 entry lonely).1 = .ok .reaped := by
  have once : [claimed, entry].Nodup := by decide
  obtain ⟨paged, -, -, -, apart⟩ :=
    sweep_treats_each unreadable 10000 neglected_wellFormed once neglected_overdue
  have matched : unreadable.Matches faultless entry neglected lonely :=
    ⟨rfl, rfl, rfl, rfl, nofun⟩
  refine ⟨paged, ?_⟩
  exact (apart entry (by decide) _ _ matched).1.trans rfl

end BlobLifecycle
