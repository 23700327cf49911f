import BlobLifecycle.Proofs.Accounting
import BlobLifecycle.Proofs.ExactWrites
import BlobLifecycle.Proofs.Misnaming

/-! Deletions of listed content. All that the list names is gone afterwards and nothing else is, each
object is counted once, and the order of the list matters to the order of the log only. -/
namespace BlobLifecycle

theorem LocatorMap.erase_comm (m : LocatorMap α) (a b : Locator) :
    (m.erase a).erase b = (m.erase b).erase a := by
  apply LocatorMap.ext
  exact List.filter_comm _ _ _

namespace LargeStore

variable {store store' : LargeStore} {key : Locator}

theorem delete_fst_congr (root : store'.root = store.root)
    (there : store'.object? key = store.object? key) :
    (store'.delete key).1 = (store.delete key).1 := by
  have named : store'.directoryOf key = store.directoryOf key := by simp only [directoryOf, root]
  simp only [delete, named, there]
  cases store.directoryOf key with
  | error e => rfl
  | ok path =>
    cases store.object? key with
    | none => rfl
    | some object => cases object <;> rfl

theorem delete_either (store : LargeStore) (key : Locator) :
    store.delete key = (.ok (), { store with objects := store.objects.erase key }) ∨
      ∃ e, store.delete key = (.error e, store) := by
  unfold delete
  cases store.directoryOf key with
  | error e => exact .inr ⟨e, rfl⟩
  | ok path =>
    cases store.object? key with
    | none => exact .inr ⟨_, rfl⟩
    | some object =>
      cases object with
      | directory d => exact .inl rfl
      | plainFile => exact .inr ⟨_, rfl⟩

theorem object?_erase {locator : Locator} (apart : locator ≠ key) :
    ({ store with objects := store.objects.erase key } : LargeStore).object? locator =
      store.object? locator := by
  simp [object?, LocatorMap.find?_erase, apart]

end LargeStore

namespace Vault

def discard (v : Vault) : Tier → Locator → Vault
  | .inline, _ => v
  | .medium, locator => { v with medium := v.medium.erase locator }
  | .large, locator => { v with large := { v.large with objects := v.large.objects.erase locator } }

variable {v : Vault} {tier tier' : Tier} {locator locator' : Locator}

theorem discard_comm (v : Vault) (tier tier' : Tier) (locator locator' : Locator) :
    (v.discard tier locator).discard tier' locator' =
      (v.discard tier' locator').discard tier locator := by
  cases tier <;> cases tier' <;> simp [discard, LocatorMap.erase_comm]

theorem delete_either (v : Vault) (tier : Tier) (locator : Locator) :
    v.delete tier locator = (.ok (), v.discard tier locator) ∨
      ∃ e, v.delete tier locator = (.error e, v) := by
  cases tier with
  | inline => exact .inl rfl
  | medium =>
    unfold delete MediumStore.delete
    by_cases there : v.medium.contains locator
    · simp [there, discard]
    · simp [there]
  | large =>
    rcases v.large.delete_either locator with done | ⟨e, failed⟩
    · exact .inl (by simp only [delete, done, discard])
    · exact .inr ⟨e, by simp only [delete, failed]⟩

theorem delete_of_ok (done : (v.delete tier locator).1 = .ok ()) :
    v.delete tier locator = (.ok (), v.discard tier locator) := by
  rcases v.delete_either tier locator with same | ⟨e, failed⟩
  · exact same
  · rw [failed] at done
    cases done

theorem delete_of_error {e : BlobError} (failed : (v.delete tier locator).1 = .error e) :
    v.delete tier locator = (.error e, v) := by
  rcases v.delete_either tier locator with done | ⟨e', same⟩
  · rw [done] at failed
    cases failed
  · rw [same] at failed ⊢
    cases failed
    rfl

theorem delete_discard (apart : (tier, locator) ≠ (tier', locator')) :
    ((v.discard tier locator).delete tier' locator').1 = (v.delete tier' locator').1 := by
  cases tier with
  | inline => rfl
  | medium =>
    cases tier' with
    | medium =>
      have aside : locator' ≠ locator := fun same => apart (by rw [same])
      have same : (v.medium.erase locator).contains locator' = v.medium.contains locator' := by
        simp [LocatorMap.contains, LocatorMap.find?_erase, aside]
      simp only [discard, delete, MediumStore.delete, same]
      split <;> rfl
    | _ => rfl
  | large =>
    cases tier' with
    | large =>
      have aside : locator' ≠ locator := fun same => apart (by rw [same])
      exact LargeStore.delete_fst_congr rfl (LargeStore.object?_erase aside)
    | _ => rfl

/-- Two deletions at different places may change their order. -/
theorem delete_comm (apart : (tier, locator) ≠ (tier', locator')) :
    ((v.delete tier locator).2.delete tier' locator').1 = (v.delete tier' locator').1 ∧
      ((v.delete tier locator).2.delete tier' locator').2 =
        ((v.delete tier' locator').2.delete tier locator).2 := by
  have first : ((v.discard tier locator).delete tier' locator').1 = _ := delete_discard apart
  have second : ((v.discard tier' locator').delete tier locator).1 = _ := delete_discard apart.symm
  cases result : (v.delete tier locator).1 with
  | ok done =>
    rw [result] at second
    cases result' : (v.delete tier' locator').1 with
    | ok done' =>
      rw [result'] at first
      simp only [delete_of_ok result, delete_of_ok result', delete_of_ok first, delete_of_ok second]
      exact ⟨trivial, v.discard_comm tier tier' locator locator'⟩
    | error e' =>
      rw [result'] at first
      simp [delete_of_ok result, delete_of_error result', delete_of_error first]
  | error e =>
    rw [result] at second
    cases result' : (v.delete tier' locator').1 with
    | ok done' =>
      simp [delete_of_error result, delete_of_ok result', delete_of_error second]
    | error e' => simp [delete_of_error result, delete_of_error result']

def withLog (v : Vault) (events : List Event) : Vault := { v with events }

/-- The log has no part in a deletion. -/
theorem delete_withLog (v : Vault) (events : List Event) (tier : Tier) (locator : Locator) :
    (v.withLog events).delete tier locator =
      ((v.delete tier locator).1, (v.delete tier locator).2.withLog events) := by
  cases tier <;> rfl

/-- The same but for the order of the lines in the log. -/
structure LoggedAlike (v v' : Vault) : Prop where
  events : v.events.Perm v'.events
  rest : v' = v.withLog v'.events

theorem LoggedAlike.refl (v : Vault) : v.LoggedAlike v := ⟨.refl _, rfl⟩

theorem LoggedAlike.trans {v v' v'' : Vault} (first : v.LoggedAlike v')
    (second : v'.LoggedAlike v'') : v.LoggedAlike v'' := by
  refine ⟨first.events.trans second.events, ?_⟩
  rw [second.rest, first.rest]
  rfl

end Vault

def Handle.complaint (h : Handle) : Except BlobError Unit → List Event
  | .ok () => []
  | .error e =>
    [if e.isNotFound then .alreadyGone h.label else .deletionFailed h.label h.tier e]

theorem Handle.SameObject.complaint {a b : Handle} (same : a.SameObject b)
    (result : Except BlobError Unit) : a.complaint result = b.complaint result := by
  have label : a.label = b.label := by
    unfold Handle.label
    rw [same.1, same.2]
  cases result with
  | ok done => rfl
  | error e => simp only [Handle.complaint, label, same.1]

def deletionCount : Except BlobError Unit → Nat
  | .ok () => 1
  | .error _ => 0

namespace Vault

variable {v v' : Vault}

theorem delete_events (v : Vault) (tier : Tier) (locator : Locator) :
    (v.delete tier locator).2.events = v.events := by
  cases tier <;> rfl

theorem run_deleteContent (v : Vault) (h : Handle) :
    let deleted := v.delete h.tier h.locator
    v.run h.deleteContent =
      (deletionCount deleted.1, deleted.2.withLog (v.events ++ h.complaint deleted.1)) := by
  intro deleted
  rw [← v.delete_events h.tier h.locator]
  rcases v.delete_either h.tier h.locator with done | ⟨e, failed⟩
  · refine (Vault.run_answered (r := .delete h.tier h.locator) _ done).trans ?_
    simp only [deleted, done, deletionCount, Handle.complaint, List.append_nil]
    rfl
  · refine (Vault.run_answered (r := .delete h.tier h.locator) _ failed).trans ?_
    simp only [deleted, failed]
    rfl

theorem run_deleteAll_cons (v : Vault) (h : Handle) (rest : List Handle) :
    let first := v.run h.deleteContent
    v.run (deleteAll (h :: rest)) =
      (first.1 + (first.2.run (deleteAll rest)).1, (first.2.run (deleteAll rest)).2) := by
  unfold run
  rw [deleteAll, Program.interpret_bind_run, Program.interpret_bind_run]
  rfl

theorem LoggedAlike.deleteContent (alike : v.LoggedAlike v') (h : Handle) :
    (v'.run h.deleteContent).1 = (v.run h.deleteContent).1 ∧
      (v.run h.deleteContent).2.LoggedAlike (v'.run h.deleteContent).2 := by
  obtain ⟨perm, rest⟩ := alike
  rw [run_deleteContent, run_deleteContent, rest, delete_withLog]
  refine ⟨rfl, ?_, rfl⟩
  exact perm.append_right _

/-- Two deletions in a row may change their order. -/
theorem deleteContent_comm (v : Vault) (a b : Handle) :
    let first := v.run a.deleteContent
    let second := v.run b.deleteContent
    first.1 + (first.2.run b.deleteContent).1 = second.1 + (second.2.run a.deleteContent).1 ∧
      (first.2.run b.deleteContent).2.LoggedAlike (second.2.run a.deleteContent).2 := by
  intro first second
  by_cases same : a.SameObject b
  · have alike (v : Vault) : v.run a.deleteContent = v.run b.deleteContent := by
      simp only [run_deleteContent, same.1, same.2, same.complaint]
    simp only [first, second, alike]
    exact ⟨trivial, .refl _⟩
  · have apart : (a.tier, a.locator) ≠ (b.tier, b.locator) := fun here =>
      same ⟨congrArg Prod.fst here, congrArg Prod.snd here⟩
    obtain ⟨counts, states⟩ := v.delete_comm apart
    obtain ⟨counts', -⟩ := v.delete_comm apart.symm
    simp only [first, second, run_deleteContent, delete_withLog]
    rw [counts, counts', states]
    refine ⟨Nat.add_comm _ _, ?_, rfl⟩
    show (v.events ++ _ ++ _).Perm (v.events ++ _ ++ _)
    rw [List.append_assoc, List.append_assoc]
    exact List.perm_append_comm.append_left _

theorem LoggedAlike.deleteAll (alike : v.LoggedAlike v') (handles : List Handle) :
    (v'.run (deleteAll handles)).1 = (v.run (deleteAll handles)).1 ∧
      (v.run (deleteAll handles)).2.LoggedAlike (v'.run (deleteAll handles)).2 := by
  induction handles generalizing v v' with
  | nil => exact ⟨rfl, alike⟩
  | cons h rest ih =>
    obtain ⟨count, first⟩ := alike.deleteContent h
    obtain ⟨counts, states⟩ := ih first
    rw [run_deleteAll_cons, run_deleteAll_cons]
    exact ⟨by rw [count, counts], states⟩

/-- Whatever the order, the same is counted and left. -/
theorem deleteAll_perm {handles handles' : List Handle} (perm : handles.Perm handles') (v : Vault) :
    (v.run (deleteAll handles')).1 = (v.run (deleteAll handles)).1 ∧
      (v.run (deleteAll handles)).2.LoggedAlike (v.run (deleteAll handles')).2 := by
  induction perm generalizing v with
  | nil => exact ⟨rfl, .refl v⟩
  | cons h perm ih =>
    obtain ⟨counts, states⟩ := ih (v.run h.deleteContent).2
    rw [run_deleteAll_cons, run_deleteAll_cons]
    exact ⟨by rw [counts], states⟩
  | swap b a rest =>
    obtain ⟨count, alike⟩ := v.deleteContent_comm a b
    obtain ⟨counts, states⟩ := alike.deleteAll rest
    simp only [run_deleteAll_cons]
    refine ⟨?_, states⟩
    rw [counts, ← Nat.add_assoc, ← Nat.add_assoc, count]
  | trans perm perm' ih ih' =>
    obtain ⟨counts, states⟩ := ih v
    obtain ⟨counts', states'⟩ := ih' v
    exact ⟨counts'.trans counts, states.trans states'⟩

/-- A deletion succeeds if its object is there. -/
theorem delete_ok_iff (sound : v.large.Sound) {tier : Tier} (stored : tier.isStored = true)
    (locator : Locator) : (v.delete tier locator).1 = .ok () ↔ v.Holds tier locator := by
  rcases v.delete_account stored locator with ⟨there, v', done, -⟩ | ⟨e, failed, -⟩
  · simp [done, there]
  · have gone := v.delete_object sound tier locator
    rw [failed] at gone
    simp [failed, Holds, gone]

theorem delete_holds (sound : v.large.Sound) (tier tier' : Tier) (locator locator' : Locator) :
    (v.delete tier locator).2.Holds tier' locator' ↔
      (tier', locator') ≠ (tier, locator) ∧ v.Holds tier' locator' := by
  by_cases here : (tier', locator') = (tier, locator)
  · cases here
    simp [Holds, v.delete_object sound tier locator]
  · have apart : (Request.delete tier locator).place? ≠ some (tier', locator') :=
      fun same => here (Option.some.inj same).symm
    have same : (v.delete tier locator).2.object? tier' locator' = _ := Request.object_other apart
    simp [Holds, same, here]

/-- What is listed is counted, each object that is there once. -/
theorem deleteAll_count (sound : v.large.Sound) {handles : List Handle}
    (stored : ∀ h ∈ handles, h.tier.isStored = true) :
    ((v.run (deleteAll handles)).1 : ℕ∞) =
      {object : Tier × Locator | Places handles object.1 object.2 ∧
        v.Holds object.1 object.2}.encard := by
  induction handles generalizing v with
  | nil =>
    show ((0 : Nat) : ℕ∞) = _
    simp [Places]
  | cons h rest ih =>
    obtain ⟨here, others⟩ := List.forall_mem_cons.1 stored
    have after : (v.delete h.tier h.locator).2.large.Sound :=
      ((Request.delete h.tier h.locator).answer_stores v).sound sound
    have rest' := ih (v := (v.run h.deleteContent).2) (by rw [run_deleteContent]; exact after)
      others
    have holds (tier : Tier) (locator : Locator) : (v.run h.deleteContent).2.Holds tier locator ↔
        (tier, locator) ≠ (h.tier, h.locator) ∧ v.Holds tier locator := by
      rw [run_deleteContent]
      exact v.delete_holds sound h.tier tier h.locator locator
    simp only [holds] at rest'
    rw [run_deleteAll_cons, Nat.cast_add, rest', run_deleteContent, add_comm]
    cases result : (v.delete h.tier h.locator).1 with
    | ok done =>
      have there := (v.delete_ok_iff sound here h.locator).1 result
      have named : {object : Tier × Locator | Places (h :: rest) object.1 object.2 ∧
          v.Holds object.1 object.2} = insert (h.tier, h.locator) {object |
            Places rest object.1 object.2 ∧ (object.1, object.2) ≠ (h.tier, h.locator) ∧
              v.Holds object.1 object.2} := by
        ext ⟨tier, locator⟩
        simp only [Places, Set.mem_ofPred_eq, Set.mem_insert_iff, List.exists_mem_cons_iff,
          Prod.mk.injEq, ne_eq]
        grind
      rw [named, Set.encard_insert_of_notMem (by simp)]
      rfl
    | error e =>
      have missing : ¬v.Holds h.tier h.locator := by
        rw [← v.delete_ok_iff sound here h.locator, result]
        nofun
      have named : {object : Tier × Locator | Places (h :: rest) object.1 object.2 ∧
          v.Holds object.1 object.2} = {object | Places rest object.1 object.2 ∧
            (object.1, object.2) ≠ (h.tier, h.locator) ∧ v.Holds object.1 object.2} := by
        ext ⟨tier, locator⟩
        simp only [Places, Set.mem_ofPred_eq, List.exists_mem_cons_iff, Prod.mk.injEq, ne_eq]
        grind
      rw [named]
      exact add_zero _

def StoresOnly (v v' : Vault) : Prop :=
  v' = { v with
    medium := v'.medium, large := { v.large with objects := v'.large.objects }, events := v'.events }

theorem StoresOnly.trans {v v' v'' : Vault} (first : v.StoresOnly v') (second : v'.StoresOnly v'') :
    v.StoresOnly v'' := by
  unfold StoresOnly at *
  rw [second, first]

theorem StoresOnly.ledger {v v' : Vault} (only : v.StoresOnly v') : v'.ledger = v.ledger := by
  unfold StoresOnly at only
  rw [only]

theorem deleteContent_only (v : Vault) (h : Handle) :
    v.StoresOnly (v.run h.deleteContent).2 := by
  rw [run_deleteContent]
  rcases v.delete_either h.tier h.locator with done | ⟨e, failed⟩
  · rw [done]
    cases h.tier <;> rfl
  · rw [failed]
    rfl

theorem deleteAll_only (v : Vault) (handles : List Handle) :
    v.StoresOnly (v.run (deleteAll handles)).2 := by
  induction handles generalizing v with
  | nil => rfl
  | cons h rest ih =>
    rw [run_deleteAll_cons]
    exact (v.deleteContent_only h).trans (ih _)

structure Discards (v : Vault) (handles : List Handle) (deleted : Nat) (v' : Vault) : Prop where
  /-- Partial directories of the bulk store are objects too. -/
  gone : ∀ h ∈ handles, h.tier.isStored = true → ¬v'.Holds h.tier h.locator
  others : ∀ tier locator, ¬Places handles tier locator →
    v'.object? tier locator = v.object? tier locator
  ledger : v'.ledger = v.ledger
  only : v.StoresOnly v'
  deleted : (deleted : ℕ∞) =
    {object : Tier × Locator | Places handles object.1 object.2 ∧ v.Holds object.1 object.2}.encard

end Vault

/-- Only stored handles name what can be there. -/
theorem places_stored {v : Vault} {handles : List Handle} {tier : Tier} {locator : Locator}
    (there : v.Holds tier locator) :
    Places (handles.filter (·.tier.isStored)) tier locator ↔ Places handles tier locator := by
  have stored : tier.isStored = true := by
    cases tier with
    | inline => exact (there rfl).elim
    | medium | large => rfl
  simp only [Places, List.mem_filter]
  constructor
  · rintro ⟨h, ⟨member, -⟩, named⟩
    exact ⟨h, member, named⟩
  · rintro ⟨h, member, rfl, rfl⟩
    exact ⟨h, ⟨member, stored⟩, rfl, rfl⟩

/-- A deletion is complete, touches nothing else and counts each object once, and it does not matter
in which order the handles come. Those that are inline or name nothing have no effect. -/
theorem deletion_exact {v : Vault} (sound : v.large.Sound) (handles : List Handle) :
    let discarded := v.run (deleteNow handles)
    v.Discards handles discarded.1 discarded.2 ∧ ∀ handles', handles.Perm handles' →
      (v.run (deleteNow handles')).1 = discarded.1 ∧
        discarded.2.LoggedAlike (v.run (deleteNow handles')).2 := by
  intro discarded
  have only : v.StoresOnly discarded.2 := v.deleteAll_only _
  have gone := deleteNow_ensures sound handles []
  have others {tier : Tier} {locator : Locator} (aside : ¬Places handles tier locator) :=
    (deleteNow_asks handles).objects v [] aside
  simp only [Program.ensures_iff] at gone others
  refine ⟨⟨fun h member stored there => there (gone h member stored), fun _ _ => others,
    only.ledger, only, ?_⟩, fun handles' perm => v.deleteAll_perm (perm.filter _)⟩
  refine (v.deleteAll_count sound (by simp)).trans (congrArg Set.encard ?_)
  ext ⟨tier, locator⟩
  exact and_congr_left places_stored

namespace Sample

/-- Content in both stores under one locator, a write to the bulk store that was not finished, and
content that is not listed. -/
def cluttered : Vault :=
  { Vault.numbered 1000000 with
    medium := ((∅ : MediumStore).insert identifier ⟨"a/b", [7], 5⟩).insert [1] ⟨"a/b", [8], 5⟩
    large := ((Vault.numbered 1000000).large.put identifier (.directory ⟨some [9], false, none⟩)).put
      (List.replicate 16 5) (.directory ⟨none, true, none⟩) }

def stray (tier : Tier) (locator : Locator) : Handle := ⟨"a/b", 1, "n", tier, locator⟩

/-- Some are inline, repeated, unknown or no identifiers of the bulk store. -/
def listed : List Handle :=
  [stray .inline [7], stray .medium identifier, stray .large identifier, stray .large [1, 2],
    stray .medium identifier, stray .large (List.replicate 16 5), stray .medium [3]]

end Sample

/-- Three objects are listed, one of them twice. -/
theorem cluttered_vault_cleared :
    Sample.cluttered.large.Sound ∧ (Sample.cluttered.run (deleteNow Sample.listed)).1 = 3 ∧
      Sample.cluttered.Discards Sample.listed 3 (Sample.cluttered.run (deleteNow Sample.listed)).2 ∧
      (Sample.cluttered.run (deleteNow Sample.listed.reverse)).1 = 3 := by
  have empty : (Vault.numbered 1000000).large.Sound := nofun
  have sound : Sample.cluttered.large.Sound := (empty.put _ rfl).put _ rfl
  have count : (Sample.cluttered.run (deleteNow Sample.listed)).1 = 3 := by decide +kernel
  obtain ⟨discards, orders⟩ := deletion_exact sound Sample.listed
  rw [count] at discards orders
  exact ⟨sound, count, discards, (orders _ (List.reverse_perm _).symm).1⟩

end BlobLifecycle
