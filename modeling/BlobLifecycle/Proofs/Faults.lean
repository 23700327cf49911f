import BlobLifecycle.Proofs.Whole

/-! Runs in which some requests fail, always alike, and that may stop after any request. What a
deletion comes to depends on its own locator only, and a second one finds nothing to do. -/
namespace BlobLifecycle

namespace Program

variable (answer : (r : Request) → StateM Vault r.Reply)

/-- After each request the state is one of these, and the end is as promised. -/
def Passes (stage : Vault → Prop) (goal : α → Vault → Prop) : Program α → Vault → Prop
  | done a, v => goal a v
  | call r next, v =>
    stage (answer r v).2 ∧ (next (answer r v).1).Passes stage goal (answer r v).2

def stopped : Nat → Program α → Vault → Vault
  | 0, _, v => v
  | _ + 1, done _, v => v
  | n + 1, call r next, v => (next (answer r v).1).stopped n (answer r v).2

variable {answer} {stage : Vault → Prop} {v v' : Vault}

/-- The first request is answered so and leads to this state. -/
theorem Passes.answered {r : Request} {next : r.Reply → Program α} {reply : r.Reply}
    {goal : α → Vault → Prop} (answered : answer r v = (reply, v')) (here : stage v')
    (rest : (next reply).Passes answer stage goal v') : (call r next).Passes answer stage goal v := by
  refine ⟨?_, ?_⟩ <;> rw [answered]
  · exact here
  · exact rest

theorem Passes.mono {p : Program α} {stage' : Vault → Prop} {goal goal' : α → Vault → Prop}
    (passes : p.Passes answer stage goal v) (stages : ∀ v, stage v → stage' v)
    (implies : ∀ a v, goal a v → goal' a v) : p.Passes answer stage' goal' v := by
  induction p generalizing v with
  | done a => exact implies a v passes
  | call r next ih => exact ⟨stages _ passes.1, ih _ passes.2⟩

theorem Passes.bind {p : Program α} {f : α → Program β} {mid : α → Vault → Prop}
    {goal : β → Vault → Prop} (first : p.Passes answer stage mid v)
    (rest : ∀ a v, mid a v → (f a).Passes answer stage goal v) :
    (p >>= f).Passes answer stage goal v := by
  induction p generalizing v with
  | done a => exact rest a v first
  | call r next ih => exact ⟨first.1, ih _ first.2⟩

theorem Passes.stopped {p : Program α} {goal : α → Vault → Prop}
    (passes : p.Passes answer stage goal v) (start : stage v) (n : Nat) :
    stage (p.stopped answer n v) := by
  induction n generalizing p v with
  | zero => exact start
  | succ n ih =>
    cases p with
    | done a => exact start
    | call r next => exact ih passes.2 passes.1

theorem Passes.run {p : Program α} {goal : α → Vault → Prop}
    (passes : p.Passes answer stage goal v) :
    goal (p.interpret answer v).1 (p.interpret answer v).2 := by
  induction p generalizing v with
  | done a => exact passes
  | call r next ih => exact ih _ passes.2

end Program

namespace Operation

theorem passes_lift {answer : (r : Request) → StateM Vault r.Reply} {p : Program α}
    {f : α → Operation β} {stage : Vault → Prop} {goal : Except BlobError β → Vault → Prop} {v : Vault}
    (passes : (p >>= fun a => (f a).run).Passes answer stage goal v) :
    (ExceptT.lift p >>= f).run.Passes answer stage goal v := by
  rw [run_lift_bind]
  exact passes

end Operation

/-- The histories and the deletions that fail, without effect and always alike. -/
structure Faults where
  history : RecordId → FieldTypeId → Option BlobError
  deletion : Tier → Locator → Option BlobError

namespace Faults

def answer (faults : Faults) : (request : Request) → StateM Vault request.Reply
  | .fieldHistory record field => fun v =>
    match faults.history record field with
    | some error => (.error error, v)
    | none => v.answer (.fieldHistory record field)
  | .delete tier locator => fun v =>
    match faults.deletion tier locator with
    | some error => (.error error, v)
    | none => v.answer (.delete tier locator)
  | request => Vault.answer request

/-- Every such answer is one that requests may get. -/
theorem answer_outcome (faults : Faults) (r : Request) (v : Vault) :
    r.Outcome v (faults.answer r v).1 (faults.answer r v).2 := by
  cases r with
  | fieldHistory record field =>
    simp only [answer]
    split
    · next error _ => exact .failed (e := error) rfl
    · exact .served
  | delete tier locator =>
    simp only [answer]
    split
    · next error _ => exact .failed (e := error) rfl
    · exact .served
  | _ => exact .served

end Faults

/-- What a locator has in the ledger and in the stores. -/
@[ext] structure Cell where
  row : Option LedgerRow
  medium : Option MediumBlob
  large : Option LargeObject

namespace Vault

def cell (v : Vault) (locator : Locator) : Cell :=
  ⟨v.row locator, v.medium.find? locator, v.large.objects.find? locator⟩

structure Alike (v v' : Vault) : Prop where
  clock : v'.clock = v.clock
  repository : v'.repository = v.repository
  root : v'.large.root = v.large.root
  isBlocked : v'.large.isBlocked = v.large.isBlocked

theorem Alike.refl (v : Vault) : v.Alike v := ⟨rfl, rfl, rfl, rfl⟩

theorem Alike.trans {v v' v'' : Vault} (first : v.Alike v') (second : v'.Alike v'') : v.Alike v'' :=
  ⟨second.clock.trans first.clock, second.repository.trans first.repository,
    second.root.trans first.root, second.isBlocked.trans first.isBlocked⟩

def Wanes (v v' : Vault) (locator : Locator) : Prop :=
  ∀ row', v'.row locator = some row' →
    ∃ row mark, v.row locator = some row ∧ row' = { row with condemnedAt := mark }

theorem Wanes.of_same {v v' : Vault} {locator : Locator} (same : v'.row locator = v.row locator) :
    v.Wanes v' locator :=
  fun row present => ⟨row, row.condemnedAt, same.symm.trans present, rfl⟩

theorem Wanes.trans {v v' v'' : Vault} {locator : Locator} (first : v.Wanes v' locator)
    (second : v'.Wanes v'' locator) : v.Wanes v'' locator := by
  intro row'' present
  obtain ⟨row', mark', present', rfl⟩ := second row'' present
  obtain ⟨row, mark, present'', rfl⟩ := first row' present'
  exact ⟨row, mark', present'', rfl⟩

end Vault

def isCleared : Except BlobError Unit → Bool
  | .ok () => true
  | .error error => error.isNotFound

theorem isCleared_ok : isCleared (.ok ()) = true := rfl

/-- A deletion fails without effect, or another one would find nothing. -/
theorem MediumStore.delete_cases (store : MediumStore) (locator : Locator) :
    (∃ error, store.delete locator = (.error error, store)) ∨
      ∃ store', store.delete locator = (.ok (), store') ∧
        store'.delete locator = (.error (.notFound .medium locator), store') := by
  unfold delete
  split
  · refine .inr ⟨_, rfl, ?_⟩
    rw [if_neg]
    simp [LocatorMap.contains, LocatorMap.find?_erase]
  · exact .inl ⟨_, rfl⟩

theorem LargeStore.delete_cases (store : LargeStore) (locator : Locator) :
    (∃ error, store.delete locator = (.error error, store)) ∨
      ∃ store', store.delete locator = (.ok (), store') ∧
        store'.delete locator = (.error (.notFound .large locator), store') := by
  cases named : store.directoryOf locator with
  | error error => exact .inl ⟨error, by simp only [delete, named]⟩
  | ok path =>
    cases there : store.object? locator with
    | none => exact .inl ⟨.notFound .large locator, by simp only [delete, named, there]⟩
    | some object =>
      cases object with
      | plainFile => exact .inl ⟨.storage (.io path), by simp only [delete, named, there]⟩
      | directory d =>
        refine .inr ⟨{ store with objects := store.objects.erase locator },
          by simp only [delete, named, there], ?_⟩
        have unblocked := unblocked_of_directory there
        have gone : object? { store with objects := store.objects.erase locator } locator = none := by
          simp [object?, unblocked, LocatorMap.find?_erase]
        have named' : directoryOf { store with objects := store.objects.erase locator } locator =
            .ok path := named
        simp only [delete, named', gone]

/-- An entry is read from its row. -/
theorem Ledger.get_eq_some {ledger : Ledger} {locator : Locator} {e : Entry} :
    ledger.get locator = .ok (some e) ↔ e.locator = locator ∧ ledger.find? locator = some e.row := by
  unfold get
  cases ledger.find? locator with
  | none => simp
  | some row =>
    rw [Option.some_inj, ← LedgerRow.toEntry_eq_ok]
    cases read : row.toEntry locator <;> simp [read, Except.map]

namespace Vault

variable {v v' : Vault} {tier : Tier} {locator other : Locator}

theorem delete_cases (v : Vault) (tier : Tier) (locator : Locator) :
    (∃ error, v.delete tier locator = (.error error, v)) ∨
      ∃ v', v.delete tier locator = (.ok (), v') ∧ isCleared (v'.delete tier locator).1 = true ∧
        (v'.delete tier locator).2 = v' := by
  cases tier with
  | inline => exact .inr ⟨v, rfl, rfl, rfl⟩
  | medium =>
    rcases v.medium.delete_cases locator with ⟨error, fails⟩ | ⟨medium, first, second⟩
    · exact .inl ⟨error, by simp only [delete, fails]⟩
    · refine .inr ⟨{ v with medium }, by simp only [delete, first], ?_⟩
      simp only [delete, second]
      exact ⟨rfl, trivial⟩
  | large =>
    rcases v.large.delete_cases locator with ⟨error, fails⟩ | ⟨large, first, second⟩
    · exact .inl ⟨error, by simp only [delete, fails]⟩
    · refine .inr ⟨{ v with large }, by simp only [delete, first], ?_⟩
      simp only [delete, second]
      exact ⟨rfl, trivial⟩

theorem delete_alike (v : Vault) (tier : Tier) (locator : Locator) :
    v.Alike (v.delete tier locator).2 ∧ (v.delete tier locator).2.ledger = v.ledger := by
  cases tier with
  | inline | medium => exact ⟨⟨rfl, rfl, rfl, rfl⟩, rfl⟩
  | large =>
    have same : (v.large.delete locator).2.root = v.large.root ∧
        (v.large.delete locator).2.isBlocked = v.large.isBlocked := by
      unfold LargeStore.delete
      split
      · exact ⟨rfl, rfl⟩
      · split <;> exact ⟨rfl, rfl⟩
    exact ⟨⟨rfl, rfl, same.1, same.2⟩, rfl⟩

theorem delete_apart (apart : other ≠ locator) :
    (v.delete tier locator).2.cell other = v.cell other := by
  cases tier with
  | inline => rfl
  | medium =>
    simp only [cell, row, delete, MediumStore.delete]
    split
    · rw [LocatorMap.find?_erase, if_neg apart]
    · rfl
  | large =>
    simp only [cell, row, delete, LargeStore.delete]
    split
    · rfl
    · split
      · rw [LocatorMap.find?_erase, if_neg apart]
      · rfl
      · rfl

/-- A deletion depends on what its locator has in the stores, and changes only that. -/
theorem delete_congr (root : v'.large.root = v.large.root)
    (isBlocked : v'.large.isBlocked = v.large.isBlocked)
    (medium : v'.medium.find? locator = v.medium.find? locator)
    (large : v'.large.objects.find? locator = v.large.objects.find? locator) :
    (v'.delete tier locator).1 = (v.delete tier locator).1 ∧
      (v'.delete tier locator).2.medium.find? locator = (v.delete tier locator).2.medium.find? locator ∧
      (v'.delete tier locator).2.large.objects.find? locator =
        (v.delete tier locator).2.large.objects.find? locator := by
  cases tier with
  | inline => exact ⟨rfl, medium, large⟩
  | medium =>
    have there : v'.medium.contains locator = v.medium.contains locator := by
      simp only [LocatorMap.contains, medium]
    simp only [delete, MediumStore.delete, there]
    cases v.medium.contains locator with
    | false => exact ⟨rfl, medium, large⟩
    | true => exact ⟨rfl, by simp [LocatorMap.find?_erase], large⟩
  | large =>
    have named : v'.large.directoryOf locator = v.large.directoryOf locator := by
      simp only [LargeStore.directoryOf, root]
    have there : v'.large.object? locator = v.large.object? locator := by
      simp only [LargeStore.object?, isBlocked, large]
    simp only [delete, LargeStore.delete, named, there]
    split
    · exact ⟨rfl, medium, large⟩
    · split
      · exact ⟨rfl, medium, by simp [LocatorMap.find?_erase]⟩
      · exact ⟨rfl, medium, large⟩
      · exact ⟨rfl, medium, large⟩

end Vault

namespace Faults

variable (faults : Faults)

/-- A deletion fails without effect, or another one would find nothing. -/
theorem delete_cases (v : Vault) (tier : Tier) (locator : Locator) :
    (∃ error, faults.answer (.delete tier locator) v = (.error error, v)) ∨
      ∃ v', faults.answer (.delete tier locator) v = (.ok (), v') ∧
        isCleared (faults.answer (.delete tier locator) v').1 = true ∧
        (faults.answer (.delete tier locator) v').2 = v' := by
  simp only [answer]
  cases faults.deletion tier locator with
  | some error => exact .inl ⟨error, rfl⟩
  | none => exact v.delete_cases tier locator

theorem delete_alike (v : Vault) (tier : Tier) (locator : Locator) :
    v.Alike (faults.answer (.delete tier locator) v).2 ∧
      (faults.answer (.delete tier locator) v).2.ledger = v.ledger := by
  simp only [answer]
  cases faults.deletion tier locator with
  | some error => exact ⟨.refl v, rfl⟩
  | none => exact v.delete_alike tier locator

section

variable {v v' : Vault} {locator other : Locator}

theorem delete_apart (v : Vault) (tier : Tier) (apart : other ≠ locator) :
    (faults.answer (.delete tier locator) v).2.cell other = v.cell other := by
  simp only [answer]
  cases faults.deletion tier locator with
  | some error => rfl
  | none => exact Vault.delete_apart apart

theorem delete_congr {faults' : Faults} {tier : Tier}
    (fails : faults'.deletion tier locator = faults.deletion tier locator)
    (root : v'.large.root = v.large.root) (isBlocked : v'.large.isBlocked = v.large.isBlocked)
    (medium : v'.medium.find? locator = v.medium.find? locator)
    (large : v'.large.objects.find? locator = v.large.objects.find? locator) :
    let after := faults.answer (.delete tier locator) v
    let after' := faults'.answer (.delete tier locator) v'
    after'.1 = after.1 ∧ after'.2.medium.find? locator = after.2.medium.find? locator ∧
      after'.2.large.objects.find? locator = after.2.large.objects.find? locator := by
  simp only [answer, fails]
  cases faults.deletion tier locator with
  | some error => exact ⟨rfl, medium, large⟩
  | none => exact Vault.delete_congr root isBlocked medium large

theorem history_silent (v : Vault) (record : RecordId) (field : FieldTypeId) :
    faults.answer (.fieldHistory record field) v =
      ((faults.answer (.fieldHistory record field) v).1, v) := by
  simp only [answer]
  split <;> rfl

theorem history_congr (same : v'.repository = v.repository) (record : RecordId)
    (field : FieldTypeId) : (faults.answer (.fieldHistory record field) v').1 =
      (faults.answer (.fieldHistory record field) v).1 := by
  simp only [answer]
  split
  · rfl
  · simp only [Vault.answer, same]

end

end Faults

end BlobLifecycle
