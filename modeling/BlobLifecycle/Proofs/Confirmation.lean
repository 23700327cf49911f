import BlobLifecycle.Proofs.AllOrNothing

/-! Confirmations that run whole. References are confirmed one by one, each in the state that those
before it left, and the first that cannot be confirmed ends it. -/
namespace BlobLifecycle

namespace LocatorMap

theorem erase_absent {m : LocatorMap α} {key : Locator} (absent : m.find? key = none) :
    m.erase key = m := by
  refine ext (List.filter_eq_self.2 fun e member => ?_)
  have apart : e.1 ≠ key := by
    rintro rfl
    exact nomatch absent.symm.trans (find?_eq_some_iff.2 member)
  simpa using apart

end LocatorMap

namespace Ledger

def without (ledger : Ledger) (references : List Reference) : Ledger :=
  references.foldl (fun ledger r => ledger.erase r.handle.locator) ledger

theorem find?_without (ledger : Ledger) (references : List Reference) (locator : Locator) :
    (ledger.without references).find? locator =
      if ∃ r ∈ references, r.handle.locator = locator then none else ledger.find? locator := by
  induction references generalizing ledger with
  | nil => simp [without]
  | cons r rest ih =>
    refine (ih (ledger.erase r.handle.locator)).trans ?_
    rw [LocatorMap.find?_erase]
    by_cases here : locator = r.handle.locator
    · simp [here]
    · simp [here, Ne.symm here]

theorem without_absent {ledger : Ledger} {references : List Reference}
    (absent : ∀ r ∈ references, ledger.find? r.handle.locator = none) :
    ledger.without references = ledger := by
  induction references with
  | nil => rfl
  | cons r rest ih =>
    obtain ⟨here, others⟩ := List.forall_mem_cons.1 absent
    rw [without, List.foldl_cons, LocatorMap.erase_absent here]
    exact ih others

end Ledger

namespace Vault

/-- What a confirmation of the reference asks for: its own claim, or content without an entry. -/
def Confirmable (v : Vault) (r : Reference) : Prop :=
  (∃ row, v.row r.handle.locator = some row ∧ row.HeldFor r.holder) ∨
    v.row r.handle.locator = none ∧ ∃ content, v.read r.handle.tier r.handle.locator = .ok content

/-- What the reference needs if it comes after these: its own claim, if none of them names the entry,
or else content. -/
def Ready (v : Vault) (before : List Reference) (r : Reference) : Prop :=
  ((∀ r' ∈ before, r'.handle.locator ≠ r.handle.locator) ∧
    ∃ row, v.row r.handle.locator = some row ∧ row.HeldFor r.holder) ∨
  ((∃ r' ∈ before, r'.handle.locator = r.handle.locator) ∨ v.row r.handle.locator = none) ∧
    ∃ content, v.read r.handle.tier r.handle.locator = .ok content

/-- These references were confirmed one after another. Their entries are gone, each of them held for
one of these references, and all else is as it was. -/
structure Confirmed (v : Vault) (done : List Reference) (v' : Vault) : Prop where
  only : v.LedgerOnly v'
  ledger : v'.ledger = v.ledger.without done
  owned : ∀ r ∈ done, ∀ row, v.row r.handle.locator = some row →
    ∃ r' ∈ done, r'.handle.locator = r.handle.locator ∧ row.HeldFor r'.holder
  ready : ∀ before r after, done = before ++ r :: after → v.Ready before r

variable {v v' v'' : Vault} {done : List Reference} {r : Reference}

theorem LedgerOnly.read (only : v.LedgerOnly v') (tier : Tier) (locator : Locator) :
    v'.read tier locator = v.read tier locator := by
  simp only [Vault.read, only.medium, only.large]

/-- If the ledger did not change either, there are but messages. -/
theorem LedgerOnly.eq_of_ledger (only : v.LedgerOnly v') (ledger : v'.ledger = v.ledger) :
    v' = { v with events := v'.events } := by
  obtain ⟨⟨clock, supply, repository⟩, medium, large, issued, lock⟩ := only
  cases v'
  cases clock; cases supply; cases repository; cases medium; cases large; cases issued; cases lock
  cases ledger
  rfl

namespace Confirmed

theorem nothing (v : Vault) : v.Confirmed [] v where
  only := .refl v
  ledger := rfl
  owned := nofun
  ready := fun before r after split => by simp at split

theorem rows (confirmed : v.Confirmed done v') (locator : Locator) : v'.row locator =
    if ∃ r ∈ done, r.handle.locator = locator then none else v.row locator :=
  (congrArg (·.find? locator) confirmed.ledger).trans (v.ledger.find?_without done locator)

theorem confirmable_iff (confirmed : v.Confirmed done v') (r : Reference) :
    v'.Confirmable r ↔ v.Ready done r := by
  unfold Confirmable Ready
  rw [confirmed.rows, confirmed.only.read]
  by_cases named : ∃ r' ∈ done, r'.handle.locator = r.handle.locator
  · have unheld : ¬∀ r' ∈ done, r'.handle.locator ≠ r.handle.locator := by simpa using named
    simp [named, unheld]
  · have aside : ∀ r' ∈ done, r'.handle.locator ≠ r.handle.locator := by simpa using named
    rw [if_neg named]
    simp only [named, false_or, and_iff_right aside]

theorem same (confirmed : v.Confirmed done v') (only : v'.LedgerOnly v'')
    (ledger : v''.ledger = v'.ledger) : v.Confirmed done v'' :=
  ⟨confirmed.only.trans only, ledger.trans confirmed.ledger, confirmed.owned, confirmed.ready⟩

theorem next (confirmed : v.Confirmed done v') (ready : v'.Confirmable r) (only : v'.LedgerOnly v'')
    (ledger : v''.ledger = v'.ledger.erase r.handle.locator) : v.Confirmed (done ++ [r]) v'' where
  only := confirmed.only.trans only
  ledger := by
    rw [ledger, confirmed.ledger, Ledger.without, Ledger.without, List.foldl_append]
    rfl
  owned := fun r' member row present => by
    by_cases named : ∃ r₁ ∈ done, r₁.handle.locator = r'.handle.locator
    · obtain ⟨r₁, earlier, same⟩ := named
      obtain ⟨r₂, earlier, same', held⟩ := confirmed.owned r₁ earlier row (same ▸ present)
      exact ⟨r₂, List.mem_append_left _ earlier, same'.trans same, held⟩
    · -- No one named the entry before, so it is the last reference that releases it.
      have last : r' = r := by
        rcases List.mem_append.1 member with earlier | last
        · exact (named ⟨r', earlier, rfl⟩).elim
        · exact List.mem_singleton.1 last
      subst last
      have kept : v'.row r'.handle.locator = some row := by
        rw [confirmed.rows, if_neg named, present]
      rcases ready with ⟨row', present', held⟩ | ⟨gone, -⟩
      · cases kept.symm.trans present'
        exact ⟨r', member, rfl, held⟩
      · cases kept.symm.trans gone
  ready := fun before r' after split => by
    rcases List.eq_nil_or_concat after with rfl | ⟨after, last, rfl⟩
    · obtain ⟨rfl, same⟩ := List.append_inj' split rfl
      cases same
      exact (confirmed.confirmable_iff r).1 ready
    · rw [List.concat_eq_append, ← List.cons_append, ← List.append_assoc] at split
      exact confirmed.ready before r' after (List.append_inj' split rfl).1

/-- A row stays, or it goes and was held for one of the references. -/
theorem row_cases (confirmed : v.Confirmed done v') (locator : Locator) :
    v'.row locator = v.row locator ∨ ∃ row, ∃ r ∈ done, r.handle.locator = locator ∧
      v.row locator = some row ∧ row.HeldFor r.holder ∧ v'.row locator = none := by
  rw [confirmed.rows]
  split
  · next named =>
    obtain ⟨r, member, rfl⟩ := named
    cases present : v.row r.handle.locator with
    | none => exact .inl rfl
    | some row =>
      obtain ⟨r', member', same, held⟩ := confirmed.owned r member row present
      exact .inr ⟨row, r', member', same, rfl, held, rfl⟩
  · exact .inl rfl

end Confirmed

end Vault

section

open Program

variable {v v' : Vault} {own : List Effect}

/-- Every row that a confirmation takes away was released, and no other row changed. -/
theorem confirm_releases (references : List Reference) (v : Vault) :
    (confirm references).run.Ensures (fun _ own v' => ∀ locator, v'.row locator = v.row locator ∨
      ∃ row holder, v.row locator = some row ∧ row.HeldFor holder ∧ v'.row locator = none ∧
        .released locator holder ∈ own) v [] := by
  refine ((confirm_obeys references).ensures (fun own v' => ∀ locator,
      v'.row locator = v.row locator ∨ ∃ row holder, v.row locator = some row ∧
        row.HeldFor holder ∧ v'.row locator = none ∧ .released locator holder ∈ own)
    (fun _ => .inl rfl) ?_ ?_).mono fun _ _ _ reached => reached.1
  · intro own v₁ v₂ kept rests locator
    rw [Vault.row, rests.ledger]
    exact kept locator
  · intro own v₁ v₂ d kept allowed happens locator
    have step : RowStep locator d (v₁.row locator) (v₂.row locator) := happens.ledger locator
    rcases kept locator with same | ⟨row, holder, before, held, gone, released⟩
    · cases d with
      | released l holder =>
        by_cases here : l = locator
        · subst here
          obtain ⟨row, before, held, gone⟩ := step.of_released
          exact .inr ⟨row, holder, same ▸ before, held, gone, List.mem_cons_self⟩
        · exact .inl ((step.unmoved fun same => here (Option.some.inj same)).trans same)
      | found e => exact .inl ((step.unmoved (by simp [Effect.target?])).trans same)
      | missed l => exact .inl ((step.unmoved (by simp [Effect.target?])).trans same)
      | _ => exact allowed.elim
    · have stays : v₂.row locator = none := by
        rw [gone] at step
        refine step.gone_stays ?_
        rintro tier time rfl
        exact allowed
      exact .inr ⟨row, holder, before, held, stays, List.mem_cons_of_mem _ released⟩

/-- One reference is confirmed and has no entry after that, or it is refused and nothing changed. -/
theorem Reference.confirm_cases (r : Reference) (v : Vault) (own : List Effect) :
    r.confirm.run.Ensures (fun result _ v' =>
      (v.Confirmable r ∧ result = .ok () ∧
        v'.ledger = v.ledger.erase r.handle.locator) ∨
      (¬v.Confirmable r ∧ result ≠ .ok () ∧ v'.ledger = v.ledger)) v own := by
  cases found : v.ledger.find? r.handle.locator with
  | some row =>
    have present : v.row r.handle.locator = some row := found
    by_cases held : row.HeldFor r.holder
    · have released : v.answer (.release r.handle.locator r.holder) =
          (.ok true, { v with ledger := v.ledger.erase r.handle.locator }) := by
        simp only [Vault.answer, Ledger.release, found, if_pos held]
      exact .leading released (.inl ⟨.inl ⟨row, present, held⟩, rfl, rfl⟩)
    · have unconfirmable : ¬v.Confirmable r := by
        rintro (⟨row', present', held'⟩ | ⟨absent, -⟩)
        · cases present.symm.trans present'
          exact held held'
        · cases present.symm.trans absent
      have kept : v.answer (.release r.handle.locator r.holder) = (.ok false, v) := by
        simp only [Vault.answer, Ledger.release, found, if_neg held]
      have read : v.answer (.entry r.handle.locator) =
          ((row.toEntry r.handle.locator).map some, v) := by
        simp only [Vault.answer, Ledger.get, found]
      refine .leading kept (.leading read ?_)
      cases row.toEntry r.handle.locator with
      | error e => exact .inr ⟨unconfirmable, by rintro ⟨⟩, rfl⟩
      | ok e => exact .inr ⟨unconfirmable, by rintro ⟨⟩, rfl⟩
  | none =>
    have absent : v.row r.handle.locator = none := found
    have unreleased : v.answer (.release r.handle.locator r.holder) = (.ok false, v) := by
      simp only [Vault.answer, Ledger.release, found]
    have missed : v.answer (.entry r.handle.locator) = (.ok none, v) := by
      simp only [Vault.answer, Ledger.get, found]
    refine .leading unreleased (.leading missed ?_)
    cases read : v.read r.handle.tier r.handle.locator with
    | ok content =>
      exact .answered read (.inl ⟨.inr ⟨absent, content, read⟩, rfl, (LocatorMap.erase_absent found).symm⟩)
    | error e =>
      have unconfirmable : ¬v.Confirmable r := by
        rintro (⟨row', present', -⟩ | ⟨-, content, read'⟩)
        · cases absent.symm.trans present'
        · cases read.symm.trans read'
      refine .answered read ?_
      show Ensures _ (ExceptT.run (if e.isNotFound = true then _ else _)) _ _
      split <;> exact .inr ⟨unconfirmable, by rintro ⟨⟩, rfl⟩

/-- The references that are left are confirmed, or one is not ready after those before it. -/
theorem confirmAll_cases {done rest : List Reference} (confirmed : v.Confirmed done v') :
    (confirmAll rest).run.Ensures (fun result _ v'' =>
      (result = .ok () ∧ v.Confirmed (done ++ rest) v'') ∨
      ∃ before r after, done ++ rest = before ++ r :: after ∧ result ≠ .ok () ∧ ¬v.Ready before r ∧
        v.Confirmed before v'') v' own := by
  -- On the references that are left; `Confirmed` accounts for those that are done.
  induction rest generalizing done v' own with
  | nil =>
    rw [List.append_nil]
    exact .inl ⟨rfl, confirmed⟩
  | cons r rest ih =>
    have first := (r.confirm_cases v' own).and (r.confirm_asks.ledgerOnly v' own)
    refine Operation.ensures_bind first ?_ ?_
    · rintro e own v'' ⟨⟨-, ok, -⟩ | ⟨unready, -, ledger⟩, only⟩
      · cases ok
      · exact .inr ⟨done, r, rest, rfl, nofun, mt (confirmed.confirmable_iff r).2 unready,
          confirmed.same only ledger⟩
    · rintro _ own v'' ⟨⟨ready, -, ledger⟩ | ⟨-, failed, -⟩, only⟩
      · rw [List.append_cons done r rest]
        exact ih (confirmed.next ready only ledger)
      · exact (failed rfl).elim

theorem confirm_cases (references : List Reference) (v : Vault) (own : List Effect) :
    (confirm references).run.Ensures (fun result _ v' =>
      (result = .ok () ∧ v.Confirmed (storedReferences references) v') ∨
      ∃ before r after, storedReferences references = before ++ r :: after ∧ result ≠ .ok () ∧
        ¬v.Ready before r ∧ v.Confirmed before v') v own :=
  confirmAll_cases (.nothing v)

/-- A confirmation of what is held, or was confirmed before, succeeds and releases it all. -/
theorem confirm_ensures {references : List Reference}
    (readable : ∀ r ∈ storedReferences references,
      ∃ content, v.read r.handle.tier r.handle.locator = .ok content)
    (ready : ∀ r ∈ storedReferences references, v.row r.handle.locator = none ∨
      ∃ row, v.row r.handle.locator = some row ∧ row.HeldFor r.holder) :
    (confirm references).run.Ensures (fun result _ v' => result = .ok () ∧
      v.Confirmed (storedReferences references) v') v own := by
  refine (confirm_cases references v own).mono fun result own v' ends => ?_
  rcases ends with done | ⟨before, r, after, split, -, unready, -⟩
  · exact done
  · have member : r ∈ storedReferences references := by simp [split]
    refine (unready ?_).elim
    by_cases named : ∃ r' ∈ before, r'.handle.locator = r.handle.locator
    · exact .inr ⟨.inl named, readable r member⟩
    · rcases ready r member with gone | held
      · exact .inr ⟨.inr gone, readable r member⟩
      · exact .inl ⟨by simpa using named, held⟩

end

/-- A confirmation removes only what it owns. It succeeds exactly if each stored reference is ready
after those before it, and else it ends at the first that is not, with those before it confirmed.
Every entry that went was held for one of the references. A confirmation that succeeded can be
repeated, and then there are but messages. -/
theorem confirmation_removes_own (v : Vault) (references : List Reference) :
    let stored := storedReferences references
    let result := (v.run (confirm references).run).1
    let v' := (v.run (confirm references).run).2
    v.LedgerOnly v' ∧
      (result = .ok () ↔ ∀ before r after, stored = before ++ r :: after → v.Ready before r) ∧
      (result = .ok () → v.Confirmed stored v' ∧ ∀ r ∈ stored, v'.row r.handle.locator = none) ∧
      (result ≠ .ok () → ∃ before r after, stored = before ++ r :: after ∧ ¬v.Ready before r ∧
        v.Confirmed before v') ∧
      (∀ locator, v'.row locator = v.row locator ∨ ∃ row, ∃ r ∈ stored, r.handle.locator = locator ∧
        v.row locator = some row ∧ row.HeldFor r.holder ∧ v'.row locator = none) ∧
      (result = .ok () →
        (∀ r ∈ stored, ∃ content, v'.read r.handle.tier r.handle.locator = .ok content) →
        let again := v'.run (confirm references).run
        again.1 = .ok () ∧ again.2 = { v' with events := again.2.events }) := by
  intro stored result v'
  have ends : (result = .ok () ∧ v.Confirmed stored v') ∨
      ∃ before r after, stored = before ++ r :: after ∧ result ≠ .ok () ∧ ¬v.Ready before r ∧
        v.Confirmed before v' :=
    Program.ensures_iff.1 (confirm_cases references v [])
  rcases ends with ⟨ok, confirmed⟩ | ⟨before, r, after, split, fails, unready, confirmed⟩
  · have gone (r : Reference) (member : r ∈ stored) : v'.row r.handle.locator = none := by
      rw [confirmed.rows, if_pos ⟨r, member, rfl⟩]
    refine ⟨confirmed.only, ⟨fun _ => confirmed.ready, fun _ => ok⟩, fun _ => ⟨confirmed, gone⟩,
      fun fails => (fails ok).elim, confirmed.row_cases, fun _ readable => ?_⟩
    have repeated : (confirm references).run.Ensures _ v' [] :=
      confirm_ensures readable fun r member => .inl (gone r member)
    obtain ⟨again, confirmed'⟩ := Program.ensures_iff.1 repeated
    exact ⟨again, confirmed'.only.eq_of_ledger (confirmed'.ledger.trans (Ledger.without_absent gone))⟩
  · refine ⟨confirmed.only, ⟨fun ok => (fails ok).elim, fun ready => ?_⟩, fun ok => (fails ok).elim,
      fun _ => ⟨before, r, after, split, unready, confirmed⟩, fun locator => ?_,
      fun ok => (fails ok).elim⟩
    · exact (unready (ready before r after split)).elim
    · refine (confirmed.row_cases locator).imp_right ?_
      rintro ⟨row, r', member, rest⟩
      exact ⟨row, r', split ▸ List.mem_append_left _ member, rest⟩

namespace Sample

def handedOver : Vault :=
  { Vault.numbered 1000000 with
    ledger := ((∅ : Ledger).insert [0] ((LedgerRow.fresh .medium 5).claimFor ⟨record, field⟩ 6)).insert
      [1] ((LedgerRow.fresh .medium 5).claimFor ⟨record, ⟨"g"⟩⟩ 6)
    medium := (((∅ : MediumStore).insert [0] ⟨"a/b", [7], 5⟩).insert [1] ⟨"a/b", [8], 5⟩).insert
      [2] ⟨"a/b", [9], 5⟩ }

/-- The first entry twice, for two fields, content without an entry, and the entry of another field. -/
def farewells : List Reference :=
  [wish .medium [0], ⟨⟨"", 1, "", .medium, [0]⟩, record, ⟨"g"⟩⟩, wish .medium [2], wish .medium [1]]

end Sample

/-- The last reference fails, and the first has released its entry. Without the last one the
confirmation succeeds, also when it is repeated. -/
theorem partial_confirmation_kept :
    let v' := (Sample.handedOver.run (confirm Sample.farewells).run).2
    let sound := Sample.farewells.take 3
    let first := Sample.handedOver.run (confirm sound).run
    (∃ before r after, storedReferences Sample.farewells = before ++ r :: after ∧
      ¬Sample.handedOver.Ready before r ∧ Sample.handedOver.Confirmed before v') ∧
      v'.ledger.keys = [[1]] ∧
      first.1 = .ok () ∧ (first.2.run (confirm sound).run).1 = .ok () ∧
      (first.2.run (confirm sound).run).2.ledger = first.2.ledger := by
  obtain ⟨-, -, -, fails, -⟩ := confirmation_removes_own Sample.handedOver Sample.farewells
  obtain ⟨-, -, -, -, -, again⟩ :=
    confirmation_removes_own Sample.handedOver (Sample.farewells.take 3)
  have refused : (Sample.handedOver.run (confirm Sample.farewells).run).1.isOk = false := by
    decide +kernel
  have failed : (Sample.handedOver.run (confirm Sample.farewells).run).1 ≠ .ok () := fun ok =>
    nomatch refused.symm.trans (congrArg Except.isOk ok)
  have ok : (Sample.handedOver.run (confirm (Sample.farewells.take 3)).run).1 = .ok () := rfl
  have readable : ∀ r ∈ storedReferences (Sample.farewells.take 3), ∃ content,
      (Sample.handedOver.run (confirm (Sample.farewells.take 3)).run).2.read r.handle.tier
        r.handle.locator = .ok content := by
    intro r member
    have listed : r = Sample.wish .medium [0] ∨
        r = ⟨⟨"", 1, "", .medium, [0]⟩, Sample.record, ⟨"g"⟩⟩ ∨ r = Sample.wish .medium [2] := by
      simpa [Sample.farewells, storedReferences, Sample.wish, Tier.isStored] using member
    rcases listed with rfl | rfl | rfl
    · exact ⟨[7], rfl⟩
    · exact ⟨[7], rfl⟩
    · exact ⟨[9], rfl⟩
  obtain ⟨repeated, same⟩ := again ok readable
  have ledger := congrArg Vault.ledger same
  exact ⟨fails failed, by decide +kernel, ok, repeated, ledger⟩

end BlobLifecycle
