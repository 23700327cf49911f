import BlobLifecycle.Proofs.Faults
import BlobLifecycle.Proofs.Paging

/-! What a sweep makes of one entry. The end of a locator follows from what it has at any moment,
and each request of a sweep leaves that end as it is, so that it does not matter how far another
sweep came before. -/
namespace BlobLifecycle

namespace Faults

variable (faults : Faults)

/-- What comes of an entry whose content is to go: both go, or the entry stays condemned. -/
def removal (now : Timestamp) (v : Vault) (e : Entry) : Cell :=
  let after := faults.answer (.delete e.tier e.locator) v
  { after.2.cell e.locator with
    row := if isCleared after.1 then none
      else some { e.row with condemnedAt := some (e.condemnedAt.getD now) } }

def judgement (now : Timestamp) (v : Vault) (e : Entry) : Cell :=
  if e.condemnedAt.isSome then faults.removal now v e
  else match e.claim with
    | none => faults.removal now v e
    | some holder =>
      match (faults.answer (.fieldHistory holder.record holder.field) v).1 with
      | .error _ => v.cell e.locator
      | .ok history =>
        if HoldObject history e.tier e.locator then { v.cell e.locator with row := none }
        else faults.removal now v e

def destiny (cutoff now : Timestamp) (v : Vault) (locator : Locator) : Cell :=
  match v.ledger.get locator with
  | .ok (some e) => if e.lastActivity < cutoff then faults.judgement now v e else v.cell locator
  | _ => v.cell locator

section

variable {faults} {cutoff now : Timestamp} {v v' : Vault} {locator : Locator} {e : Entry}

theorem destiny_absent (absent : v.row locator = none) :
    faults.destiny cutoff now v locator = v.cell locator := by
  have none : v.ledger.find? locator = none := absent
  simp only [destiny, Ledger.get, none]

theorem destiny_entry (present : v.row e.locator = some e.row) :
    faults.destiny cutoff now v e.locator =
      if e.lastActivity < cutoff then faults.judgement now v e else v.cell e.locator := by
  have read : v.ledger.get e.locator = .ok (some e) := Ledger.get_eq_some.2 ⟨rfl, present⟩
  simp only [destiny, read]

theorem removal_congr (alike : v.Alike v')
    (medium : v'.medium.find? e.locator = v.medium.find? e.locator)
    (large : v'.large.objects.find? e.locator = v.large.objects.find? e.locator) :
    faults.removal now v' e = faults.removal now v e := by
  obtain ⟨result, medium', large'⟩ :=
    faults.delete_congr rfl alike.root alike.isBlocked medium large
  exact Cell.ext (by simp only [removal, result]) medium' large'

/-- The end of a locator depends on what it has, and on nothing else that requests change. -/
theorem destiny_congr (alike : v.Alike v') (same : v'.cell locator = v.cell locator) :
    faults.destiny cutoff now v' locator = faults.destiny cutoff now v locator := by
  obtain ⟨row, medium, large⟩ := Cell.mk.inj same
  have found : v'.ledger.get locator = v.ledger.get locator := by
    simp only [Ledger.get, show v'.ledger.find? locator = v.ledger.find? locator from row]
  simp only [destiny, found]
  split
  · next e read =>
    obtain ⟨rfl, -⟩ := Ledger.get_eq_some.1 read
    have history := faults.history_congr alike.repository
    simp only [judgement, removal_congr alike medium large, history, same]
  · exact same

end

/-- A step of a sweep at one locator. Its end stays as it was. -/
structure Advance (cutoff now : Timestamp) (locator : Locator) (v v' : Vault) : Prop where
  alike : v.Alike v'
  apart : ∀ other, other ≠ locator → v'.cell other = v.cell other
  destiny : faults.destiny cutoff now v' locator = faults.destiny cutoff now v locator
  wanes : v.Wanes v' locator

/-- A sweep has nothing left to do. -/
def Settled (cutoff now : Timestamp) (v : Vault) (locator : Locator) : Prop :=
  v.cell locator = faults.destiny cutoff now v locator

section

variable {faults} {cutoff now : Timestamp} {v v' v'' : Vault} {locator : Locator} {e : Entry}

namespace Advance

theorem of_same (alike : v.Alike v') (same : ∀ locator, v'.cell locator = v.cell locator)
    (locator : Locator) : faults.Advance cutoff now locator v v' where
  alike := alike
  apart := fun other _ => same other
  destiny := destiny_congr alike (same locator)
  wanes := .of_same (congrArg Cell.row (same locator))

theorem refl (v : Vault) (locator : Locator) : faults.Advance cutoff now locator v v :=
  of_same (.refl v) (fun _ => rfl) locator

theorem trans (first : faults.Advance cutoff now locator v v')
    (second : faults.Advance cutoff now locator v' v'') :
    faults.Advance cutoff now locator v v'' where
  alike := first.alike.trans second.alike
  apart := fun other apart => (second.apart other apart).trans (first.apart other apart)
  destiny := second.destiny.trans first.destiny
  wanes := first.wanes.trans second.wanes

end Advance

theorem settled_absent (absent : v.row locator = none) : faults.Settled cutoff now v locator :=
  (destiny_absent absent).symm

theorem settled_fresh (present : v.row e.locator = some e.row) (fresh : ¬e.lastActivity < cutoff) :
    faults.Settled cutoff now v e.locator := by
  rw [Settled, destiny_entry present, if_neg fresh]

theorem settled_unread {holder : RecordField} {error : BlobError}
    (present : v.row e.locator = some e.row) (unmarked : e.condemnedAt = none)
    (claim : e.claim = some holder)
    (unread : (faults.answer (.fieldHistory holder.record holder.field) v).1 = .error error) :
    faults.Settled cutoff now v e.locator := by
  rw [Settled, destiny_entry present]
  split
  · simp only [judgement, unmarked, claim, unread]
    rfl
  · rfl

theorem settled_stuck (present : v.row e.locator = some e.row) (marked : e.condemnedAt.isSome = true)
    (stuck : isCleared (faults.answer (.delete e.tier e.locator) v).1 = false)
    (same : (faults.answer (.delete e.tier e.locator) v).2 = v) :
    faults.Settled cutoff now v e.locator := by
  obtain ⟨mark, condemned⟩ := Option.isSome_iff_exists.1 marked
  have still : { e.row with condemnedAt := some (e.condemnedAt.getD now) } = e.row := by
    rw [condemned]
    exact congrArg (fun mark => { e.row with condemnedAt := mark }) condemned.symm
  rw [Settled, destiny_entry present]
  split
  · refine Cell.ext ?_ ?_ ?_
    · simp only [judgement, removal, marked, stuck, same, still]
      exact present
    · simp only [judgement, removal, marked, same, if_true]
    · simp only [judgement, removal, marked, same, if_true]
  · rfl

theorem advance_log (event : Event) (locator : Locator) :
    faults.Advance cutoff now locator v (faults.answer (.log event) v).2 := by
  have alike : v.Alike (faults.answer (.log event) v).2 := ⟨rfl, rfl, rfl, rfl⟩
  exact .of_same alike (fun _ => rfl) locator

/-- What a step makes of the row at its locator, when all else is as it was. -/
theorem advance_ledger {ledger : Ledger} (rows : ∀ other, other ≠ locator →
      ledger.find? other = v.ledger.find? other)
    (destiny : faults.destiny cutoff now { v with ledger } locator = faults.destiny cutoff now v locator)
    (wanes : v.Wanes { v with ledger } locator) :
    faults.Advance cutoff now locator v { v with ledger } where
  alike := ⟨rfl, rfl, rfl, rfl⟩
  apart := fun other apart => Cell.ext (rows other apart) rfl rfl
  destiny := destiny
  wanes := wanes

theorem cell_erase (v : Vault) (locator : Locator) :
    Vault.cell { v with ledger := v.ledger.erase locator } locator = { v.cell locator with row := none } := by
  refine Cell.ext ?_ rfl rfl
  show (v.ledger.erase locator).find? locator = none
  rw [LocatorMap.find?_erase, if_pos rfl]

/-- Erasing a row whose entry is to go. -/
theorem advance_erase (ending : faults.destiny cutoff now v locator = { v.cell locator with row := none }) :
    faults.Advance cutoff now locator v { v with ledger := v.ledger.erase locator } ∧
      faults.Settled cutoff now { v with ledger := v.ledger.erase locator } locator := by
  have gone : Vault.row { v with ledger := v.ledger.erase locator } locator = none :=
    congrArg Cell.row (cell_erase v locator)
  refine ⟨advance_ledger (fun other apart => ?_) ?_ fun row' present => ?_, settled_absent gone⟩
  · rw [LocatorMap.find?_erase, if_neg apart]
  · rw [destiny_absent gone, ending]
    exact cell_erase v locator
  · exact nomatch gone.symm.trans present

theorem condemn_read (faults : Faults) (now : Timestamp) (present : v.row e.locator = some e.row)
    (unmarked : e.condemnedAt = none) :
    let ledger := v.ledger.modify e.locator fun row => { row with condemnedAt := some now }
    faults.answer (.condemn e now) v = (.ok true, { v with ledger }) ∧
      Vault.row { v with ledger } e.locator = some { e with condemnedAt := some now }.row := by
  have unchanged : e.row.Unchanged e := by
    refine ⟨unmarked, ?_⟩
    cases claim : e.claim <;> simp [Entry.row, claim]
  have found : v.ledger.find? e.locator = some e.row := present
  intro ledger
  refine ⟨?_, ?_⟩
  · show ((Except.ok (v.ledger.condemn e now).1, { v with ledger := (v.ledger.condemn e now).2 }) :
      Except BlobError Bool × Vault) = _
    simp only [Ledger.condemn, found, if_pos unchanged]
    rfl
  · show ledger.find? e.locator = _
    rw [LocatorMap.find?_modify, if_pos rfl, found]
    rfl

theorem release_read (faults : Faults) {holder : RecordField} (present : v.row e.locator = some e.row)
    (unmarked : e.condemnedAt = none) (claim : e.claim = some holder) :
    faults.answer (.release e.locator holder) v =
      (.ok true, { v with ledger := v.ledger.erase e.locator }) := by
  have held : e.row.HeldFor holder := by simp [LedgerRow.HeldFor, Entry.row, claim, unmarked]
  show ((Except.ok (v.ledger.release e.locator holder).1,
    { v with ledger := (v.ledger.release e.locator holder).2 }) : Except BlobError Bool × Vault) = _
  simp only [Ledger.release, show v.ledger.find? e.locator = some e.row from present, if_pos held]

theorem advance_condemn (present : v.row e.locator = some e.row) (unmarked : e.condemnedAt = none)
    (due : e.lastActivity < cutoff) (doomed : faults.judgement now v e = faults.removal now v e) :
    ∃ v', faults.answer (.condemn e now) v = (.ok true, v') ∧
      faults.Advance cutoff now e.locator v v' ∧
      v'.row e.locator = some { e with condemnedAt := some now }.row := by
  obtain ⟨answered, marked⟩ := condemn_read faults now present unmarked
  generalize ledger_eq : v.ledger.modify e.locator _ = ledger at answered marked
  refine ⟨{ v with ledger }, answered, ?_, marked⟩
  refine advance_ledger (fun other apart => ?_) ?_ fun row' present' => ?_
  · rw [← ledger_eq, LocatorMap.find?_modify, if_neg apart]
  · rw [destiny_entry present, if_pos due, doomed]
    refine (destiny_entry (e := { e with condemnedAt := some now }) marked).trans ((if_pos due).trans ?_)
    have again : faults.judgement now { v with ledger } { e with condemnedAt := some now } =
        faults.removal now { v with ledger } e := by
      simp only [judgement, removal, Option.isSome_some, if_true, unmarked]
      rfl
    exact again.trans (removal_congr ⟨rfl, rfl, rfl, rfl⟩ rfl rfl)
  · cases marked.symm.trans present'
    exact ⟨e.row, some now, present, rfl⟩

/-- Deleting the content of a condemned entry fails without effect or clears the way. -/
theorem advance_delete (faults : Faults) (now : Timestamp)
    (present : v.row e.locator = some e.row) (marked : e.condemnedAt.isSome = true)
    (due : e.lastActivity < cutoff) :
    let after := faults.answer (.delete e.tier e.locator) v
    faults.Advance cutoff now e.locator v after.2 ∧ after.2.row e.locator = some e.row ∧
      isCleared (faults.answer (.delete e.tier e.locator) after.2).1 = isCleared after.1 ∧
      (faults.answer (.delete e.tier e.locator) after.2).2 = after.2 := by
  rcases faults.delete_cases v e.tier e.locator with ⟨error, fails⟩ | ⟨v', first, clear, same⟩
  · simp only [fails]
    exact ⟨.refl v _, present, trivial, trivial⟩
  · obtain ⟨alike, ledger⟩ := faults.delete_alike v e.tier e.locator
    have apart (other : Locator) (apart : other ≠ e.locator) :=
      faults.delete_apart v e.tier apart
    simp only [first] at alike ledger apart ⊢
    have present' : v'.row e.locator = some e.row := by rw [Vault.row, ledger]; exact present
    refine ⟨⟨alike, apart, ?_, ?_⟩, present', by rw [clear]; rfl, same⟩
    · have judged (v : Vault) : faults.judgement now v e = faults.removal now v e := if_pos marked
      rw [destiny_entry present, destiny_entry present', if_pos due, if_pos due, judged, judged]
      simp only [removal, first, clear, same, isCleared_ok, if_true]
    · exact .of_same (present'.trans present.symm)

end

end Faults

def Faults.Settles (faults : Faults) (cutoff now : Timestamp) (locator : Locator) (p : Program α)
    (v : Vault) : Prop :=
  p.Passes faults.answer (faults.Advance cutoff now locator v)
    (fun _ v' => faults.Advance cutoff now locator v v' ∧ faults.Settled cutoff now v' locator) v

namespace Faults

variable {faults : Faults} {cutoff now : Timestamp} {locator : Locator} {v v' : Vault}

theorem Settles.after {p : Program α} (settles : faults.Settles cutoff now locator p v')
    (step : faults.Advance cutoff now locator v v') :
    p.Passes faults.answer (faults.Advance cutoff now locator v)
      (fun _ v' => faults.Advance cutoff now locator v v' ∧ faults.Settled cutoff now v' locator) v' :=
  settles.mono (fun _ => step.trans) fun _ _ reached => ⟨step.trans reached.1, reached.2⟩

/-- A first request that advances the locator. -/
theorem Settles.first {r : Request} {next : r.Reply → Program α} {reply : r.Reply}
    (answered : faults.answer r v = (reply, v')) (step : faults.Advance cutoff now locator v v')
    (rest : faults.Settles cutoff now locator (next reply) v') :
    faults.Settles cutoff now locator (.call r next) v :=
  .answered answered step (rest.after step)

theorem Settles.done (a : α) (settled : faults.Settled cutoff now v locator) :
    faults.Settles cutoff now locator (.done a) v := ⟨.refl v locator, settled⟩

theorem Settles.told (event : Event) (a : α) (settled : faults.Settled cutoff now v locator) :
    faults.Settles cutoff now locator (.call (.log event) fun _ => .done a) v := by
  have step : faults.Advance cutoff now locator v (faults.answer (.log event) v).2 :=
    advance_log event locator
  exact .first rfl step (.done a (Eq.trans settled step.destiny.symm))

end Faults

namespace Entry

open Faults

variable {faults : Faults} {cutoff now : Timestamp} {v : Vault} {e : Entry}

/-- Content of a condemned entry is deleted and the entry removed, or both are stuck. -/
theorem reap_settles (present : v.row e.locator = some e.row) (marked : e.condemnedAt.isSome = true)
    (due : e.lastActivity < cutoff) : faults.Settles cutoff now e.locator e.reap.run v := by
  obtain ⟨step, present', again, same⟩ := faults.advance_delete now present marked due
  generalize answered : faults.answer (.delete e.tier e.locator) v = after at step present' again same
  obtain ⟨reply, v'⟩ := after
  refine .first answered step ?_
  have removal (clear : isCleared reply = true) (outcome : EntryOutcome) :
      faults.Settles cutoff now e.locator (do
        let _ ← Operation.ofReply (.ask (.remove e.locator))
        Operation.log (.reaped e.locator e.tier)
        return outcome : Operation EntryOutcome).run v' := by
    have ending : faults.destiny cutoff now v' e.locator = { v'.cell e.locator with row := none } := by
      rw [destiny_entry present', if_pos due]
      simp only [judgement, Faults.removal, marked, again, clear, same, if_true]
    obtain ⟨erased, settled⟩ := advance_erase ending
    exact .first (r := .remove e.locator) rfl erased (.told _ _ settled)
  cases reply with
  | ok done => exact removal rfl .reaped
  | error error =>
    show faults.Settles _ _ _ (ExceptT.run (if error.isNotFound = true then _ else _)) _
    split
    · next missing => exact removal missing .staleRemoved
    · next stuck =>
      refine .done _ (settled_stuck present' marked (again.trans ?_) same)
      exact eq_false_of_ne_true stuck

/-- The entry is not read again after it was condemned, which makes no difference. -/
theorem reap_mark (e : Entry) (mark : Option Timestamp) :
    { e with condemnedAt := mark }.reap = e.reap := by
  refine congrArg (Program.call (.delete e.tier e.locator)) (funext fun reply => ?_)
  cases reply <;> rfl

theorem condemnAndReap_settles (present : v.row e.locator = some e.row)
    (unmarked : e.condemnedAt = none) (due : e.lastActivity < cutoff)
    (doomed : faults.judgement now v e = faults.removal now v e) :
    faults.Settles cutoff now e.locator (e.condemnAndReap now).run v := by
  obtain ⟨v', answered, step, present'⟩ := advance_condemn present unmarked due doomed
  have reaped : faults.Settles cutoff now e.locator { e with condemnedAt := some now }.reap.run v' :=
    reap_settles (e := { e with condemnedAt := some now }) present' rfl due
  rw [reap_mark] at reaped
  exact .first answered step reaped

/-- The row of an entry that is claimed for a record which holds the content. -/
theorem confirmLate_settles {holder : RecordField} (present : v.row e.locator = some e.row)
    (unmarked : e.condemnedAt = none) (claim : e.claim = some holder)
    (ending : faults.destiny cutoff now v e.locator = { v.cell e.locator with row := none }) :
    faults.Settles cutoff now e.locator (e.confirmLate holder).run v := by
  obtain ⟨erased, settled⟩ := advance_erase ending
  exact .first (release_read faults present unmarked claim) erased (.told _ _ settled)

theorem judge_settles (present : v.row e.locator = some e.row) (due : e.lastActivity < cutoff) :
    faults.Settles cutoff now e.locator (e.judge now).run v := by
  unfold judge
  split
  · next marked => exact reap_settles present marked due
  · next unmarked =>
    have unmarked : e.condemnedAt = none := by simpa using unmarked
    cases claim : e.claim with
    | none =>
      refine condemnAndReap_settles present unmarked due ?_
      simp only [judgement, unmarked, claim]
      rfl
    | some holder =>
      refine .first (faults.history_silent v holder.record holder.field) (.refl v _) ?_
      cases read : (faults.answer (.fieldHistory holder.record holder.field) v).1 with
      | error error => exact .done _ (settled_unread present unmarked claim read)
      | ok history =>
        have judged : faults.judgement now v e =
            if HoldObject history e.tier e.locator then { v.cell e.locator with row := none }
            else faults.removal now v e := by
          simp only [judgement, unmarked, claim, read]
          rfl
        show faults.Settles _ _ _ (ExceptT.run (if _ then _ else _)) _
        split
        · next holds =>
          refine confirmLate_settles present unmarked claim ?_
          rw [destiny_entry present, if_pos due, judged, if_pos (FieldValue.any_holdsObject.1 holds)]
        · next lacks =>
          have lacks := mt FieldValue.any_holdsObject.2 lacks
          exact condemnAndReap_settles present unmarked due (judged.trans (if_neg lacks))

theorem process_settles (listed : Entry) (wellFormed : v.ledger.WellFormed)
    (due : ∀ row, v.row listed.locator = some row → row.Expired cutoff) :
    faults.Settles cutoff now listed.locator (listed.process cutoff now).run v := by
  obtain ⟨found, read⟩ := wellFormed.get listed.locator
  have answered : faults.answer (.entry listed.locator) v = (.ok found, v) := by rw [← read]; rfl
  refine .first answered (.refl v _) ?_
  cases found with
  | none =>
    refine .done _ (settled_absent ?_)
    unfold Ledger.get at read
    split at read
    · next absent => exact absent
    · next row _ => cases sound : row.toEntry listed.locator <;> simp [sound, Except.map] at read
  | some e =>
    obtain ⟨here, present⟩ := Ledger.get_eq_some.1 read
    rw [← here] at due present ⊢
    have overdue := (e.expired_iff cutoff).1 (due _ present)
    show faults.Settles _ _ _ (ExceptT.run (if e.isFresh cutoff = true then _ else _)) _
    split
    · next fresh =>
      simp only [isFresh, Bool.and_eq_true, decide_eq_true_eq] at fresh
      exact absurd fresh.2 (Int.not_le.2 overdue)
    · exact judge_settles present overdue

end Entry

end BlobLifecycle
